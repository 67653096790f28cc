import Warrant.Number.Binary
import Warrant.Text.Ascii

/-! Decimal numerals, and the binary number nearest to one. -/

namespace Warrant

/-- A decimal number: a sign, an integer, and the power of ten that multiplies it. -/
structure Decimal where
  negative : Bool
  digits : Nat
  exponent : Int
deriving DecidableEq

namespace Decimal

/-- A leading sign and what follows it; a numeral without one is positive. -/
def splitSign : List Char → Bool × List Char
  | '-' :: rest => (true, rest)
  | '+' :: rest => (false, rest)
  | rest => (false, rest)

/-- An optional power of ten, marked by either case of the letter e, up to the end of the text. -/
def readExponent? : List Char → Option Int
  | [] => some 0
  | mark :: rest =>
    let (negative, digits) := splitSign rest
    if mark.toLower = 'e' ∧ digits ≠ [] ∧ digits.all Char.isDigit then
      let size : Int := Nat.ofDigitChars 10 digits 0
      some (if negative then -size else size)
    else none

/-- Reads an optional sign, digits with at most one point and at least one digit, and an optional
power of ten. -/
def read? (text : List Char) : Option Decimal :=
  let (negative, body) := splitSign text
  let whole := body.takeWhile Char.isDigit
  -- Digits may stand on either side of the point, and on one side they have to.
  let (fraction, rest) :=
    match body.dropWhile Char.isDigit with
    | '.' :: tail => (tail.takeWhile Char.isDigit, tail.dropWhile Char.isDigit)
    | tail => ([], tail)
  if whole = [] ∧ fraction = [] then none
  else (readExponent? rest).map fun exponent =>
    ⟨negative, Nat.ofDigitChars 10 (whole ++ fraction) 0, exponent - fraction.length⟩

/-- The power of ten just above the number, when it is not zero. -/
def reach (d : Decimal) : Int :=
  (Nat.toDigits 10 d.digits).length + d.exponent

/-- The nearest binary number. A power of ten beyond the span of the whole format decides the answer
by itself, so that no larger power is ever computed. -/
def toBinary (F : BinaryFormat) (d : Decimal) : Binary F :=
  let span : Int := F.depth + F.doublings + F.precision
  if d.digits = 0 ∨ d.reach < -span then .ofIndex d.negative 0
  else if span < d.reach then .infinite d.negative
  else .ofIndex d.negative
    (F.nearest (d.digits * Nat.pow 10 d.exponent.toNat * Nat.pow 2 F.depth)
      (Nat.pow 10 (-d.exponent).toNat))

end Decimal

/-- Reads a decimal numeral, or one of the words for infinity and for no number in any case. -/
def Binary.read? (F : BinaryFormat) (text : List Char) : Option (Binary F) :=
  let (negative, body) := Decimal.splitSign text
  let word := String.ofList (Text.lower body)
  if word = "inf" ∨ word = "infinity" then some (.infinite negative)
  else if word = "nan" then some .nan
  else (Decimal.read? text).map (Decimal.toBinary F)

end Warrant
