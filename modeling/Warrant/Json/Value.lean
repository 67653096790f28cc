import Warrant.Json.Basic
import Warrant.Json.Document
import Warrant.Number.Decimal

/-! The values that documents have. -/

namespace Warrant

namespace Numeral

/-- The integer of a numeral that has neither a point nor a power of ten. -/
def whole? (numeral : List Char) : Option Int :=
  let (negative, digits) := Decimal.splitSign numeral
  if digits ≠ [] ∧ digits.all Char.isDigit then
    let size : Int := Nat.ofDigitChars 10 digits 0
    some (if negative then -size else size)
  else none

/-- The integers that fit in 64 bits, with a sign or without. -/
def isMachineInteger (n : Int) : Bool :=
  -(Nat.pow 2 63) ≤ n && n < Nat.pow 2 64

/-- The integer that a numeral stands for, unless it is too large or is zero with a minus. -/
def integer? (numeral : List Char) : Option Int :=
  match whole? numeral with
  | some n => if isMachineInteger n ∧ ¬ (n = 0 ∧ numeral.head? = some '-') then some n else none
  | none => none

/-- The finite number that a numeral stands for. -/
def float? (numeral : List Char) : Option (Finite binary64) :=
  match (Decimal.read? numeral).map (Decimal.toBinary binary64) with
  | some (.finite value) => some value
  | _ => none

/-- The value of a numeral: an integer when it stands for one, and else a float. -/
def value? (numeral : List Char) : Option Json :=
  match integer? numeral with
  | some n => some (.int n)
  | none => (float? numeral).map .float

end Numeral

namespace Document

mutual

/-- The value of a document that nests at most so many levels: every string has a text, every number
a value, and of a repeated key the last member counts. -/
def value? (levels : Nat) : Document → Option Json
  | .null => some .null
  | .bool value => some (.bool value)
  | .number numeral => Numeral.value? numeral
  | .string text => text.map .str
  | .list items =>
    -- A list takes up one level for the items in it.
    match levels with
    | 0 => none
    | inner + 1 => (valueItems? inner items).map .arr
  | .record members =>
    match levels with
    | 0 => none
    | inner + 1 => (valueMembers? inner members).map .obj

/-- The values of all items. -/
def valueItems? (levels : Nat) : List Document → Option (List Json)
  | [] => some []
  | item :: rest => do
    let value ← item.value? levels
    let values ← valueItems? levels rest
    return value :: values

/-- The values of all members, in key order. -/
def valueMembers? (levels : Nat) : List (Option String × Document) → Option (List (String × Json))
  | [] => some []
  | (key, member) :: rest => do
    let key ← key
    let value ← member.value? levels
    let values ← valueMembers? levels rest
    return enter key value values

end

end Document

namespace Json

/-- How deep a text may nest. -/
def maxDepth : Nat := 127

/-- The value of a JSON text. -/
def parse? (text : String) : Option Json :=
  (Document.read? text.toList).bind (Document.value? maxDepth)

end Json

end Warrant
