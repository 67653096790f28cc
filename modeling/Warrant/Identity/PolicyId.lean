import Warrant.Json.Record
import Warrant.Text.Ascii

/-! Identifiers of policies. -/

namespace Warrant

/-- The identifier of a policy: the hexadecimal digest of its content, or the mask of a preview. -/
structure PolicyId where
  text : String
deriving DecidableEq

namespace PolicyId

/-- The text that stands for anything hidden in a preview. -/
def maskText : String := "**********"

/-- The identifier of every preview. -/
def mask : PolicyId := ⟨maskText⟩

/-- Whether this is the identifier of a preview. -/
def isMask (id : PolicyId) : Bool :=
  id = mask

/-- Agreement with a text up to the case of ASCII letters, since servers differ in the case of
hexadecimal digits. -/
def agrees (id : PolicyId) (text : String) : Bool :=
  Text.sameIgnoringCase id.text text

/-- An identifier is a JSON string. -/
def toJson (id : PolicyId) : Json :=
  .str id.text

/-- Reads an identifier from a JSON string. -/
def ofDocument? (document : Document) : Option PolicyId :=
  document.text?.map .mk

end PolicyId

end Warrant
