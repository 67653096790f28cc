/-! ASCII letters and digits: case, and hexadecimal values. Every other character is left alone. -/

namespace Warrant.Text

/-- A text with its ASCII capitals made small. -/
def lower (text : List Char) : List Char :=
  text.map Char.toLower

/-- Two texts agree up to the case of their ASCII letters. -/
def sameIgnoringCase (a b : String) : Bool :=
  lower a.toList == lower b.toList

/-- The value of a hexadecimal digit of either case. -/
def hexDigit? (c : Char) : Option Nat :=
  if '0' ≤ c ∧ c ≤ '9' then some (c.toNat - 48)
  else if 'a' ≤ c ∧ c ≤ 'f' then some (c.toNat - 87)
  else if 'A' ≤ c ∧ c ≤ 'F' then some (c.toNat - 55)
  else none

/-- Agreement up to case is equality of the lowered texts. -/
theorem sameIgnoringCase_iff {a b : String} :
    sameIgnoringCase a b = true ↔ lower a.toList = lower b.toList := by
  -- The comparison is the lawful equality of character lists.
  simp [sameIgnoringCase]

end Warrant.Text
