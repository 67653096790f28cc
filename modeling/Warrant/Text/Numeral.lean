/-! Whole numbers in decimal digits. -/

namespace Warrant.Text

/-- The digits of a number, without leading zeros. -/
def natural (n : Nat) : List Char :=
  Nat.toDigits 10 n

/-- The digits of a number after a minus when it is below zero. -/
def integer (n : Int) : List Char :=
  (if n < 0 then ['-'] else []) ++ natural n.natAbs

end Warrant.Text
