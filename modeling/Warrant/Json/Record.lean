import Warrant.Json.Value

/-! Typed reading of documents: records by their fields, and names from a fixed choice. -/

namespace Warrant.Document

/-- What a record does with members that it does not know. -/
inductive Strangers where
  | ignored
  | refused
deriving DecidableEq

/-- The members of a record all have a text for a key, and no known key is repeated; strangers are
there only if they are ignored. -/
def isRecord (strangers : Strangers) (names : List String)
    (members : List (Option String × Document)) : Bool :=
  members.all (fun member => member.1.any fun key => strangers = .ignored || names.contains key) &&
    names.all fun name => (members.filter fun member => member.1 = some name).length ≤ 1

/-- The fields of a record by their names, each absent or present: a record is an object, or the
list of its fields in order, of which the last may be left out. Members that no field names stay
unread. -/
def fields? (strangers : Strangers) (names : List String) :
    Document → Option (List (Option Document))
  | .record members =>
    if isRecord strangers names members then
      some (names.map fun name => members.lookup (some name))
    else none
  | .list items =>
    -- Fields at the end of a list may be left out.
    if items.length ≤ names.length then
      some (items.map some ++ List.replicate (names.length - items.length) none)
    else none
  | _ => none

/-- The text of a string. -/
def text? : Document → Option String
  | .string text => text
  | _ => none

/-- The items of a list. -/
def items? : Document → Option (List Document)
  | .list items => some items
  | _ => none

/-- A whole number below a bound. -/
def natBelow? (bound : Nat) : Document → Option Nat
  | .number numeral =>
    match Numeral.integer? numeral with
    | some (.ofNat n) => if n < bound then some n else none
    | _ => none
  | _ => none

/-- A field that may be absent or null. -/
def optional? {α : Type} (read : Document → Option α) : Option Document → Option (Option α)
  | none | some .null => some none
  | some document => (read document).map some

/-- A field that takes a default when it is absent. -/
def withDefault? {α : Type} (default : α) (read : Document → Option α) :
    Option Document → Option α
  | none => some default
  | some document => read document

/-- All items of a list, each read the same way. -/
def listOf? {α : Type} (read : Document → Option α) (document : Document) : Option (List α) :=
  document.items?.bind (List.mapM read)

/-- The tag of a document and the rest of it: a member of an object, which has to be there once, or
the first item of a list. -/
def untag? (tag : String) : Document → Option (Document × Document)
  | .record members =>
    -- A tag that is missing or repeated is no tag.
    match members.filter fun member => member.1 = some tag with
    | [(_, value)] => some (value, .record (members.filter fun member => member.1 ≠ some tag))
    | _ => none
  | .list (first :: rest) => some (first, .list rest)
  | _ => none

/-- A name from a fixed choice: a string, or an object that maps the name to null. -/
def choice? {α : Type} (named : String → Option α) : Document → Option α
  | .string text => text.bind named
  | .record [(key, .null)] => key.bind named
  | _ => none

end Warrant.Document
