import Warrant.Json.Value
import Warrant.Text.Blank

/-! The first message in what a stream has brought so far. -/

namespace Warrant

/-- The object or array at the start of a buffer, once it is complete. What follows it belongs to
later messages and is not looked at. -/
def firstFrame? (buffer : String) : Option Json :=
  let rest := Text.trimStart buffer.toList
  -- Only an object or an array tells where it ends.
  if rest.head? = some '\x7b' ∨ rest.head? = some '[' then
    match Document.readFirst? rest with
    | some (document, _) => document.value? Json.maxDepth
    | none => none
  else none

end Warrant
