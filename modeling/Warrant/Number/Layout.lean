import Warrant.Number.Shortest

/-! How a number is written: which of equally short digits, and how they are laid out. -/

namespace Warrant

/-- The choices that a layout makes. -/
structure Layout where
  /-- Whether a number of this decimal exponent is written without a power of ten. -/
  positional : Int → Bool
  /-- Whether a whole number keeps a point and a zero. -/
  wholePoint : Bool
  /-- Whether a positive exponent carries its sign. -/
  plusSign : Bool
  /-- Which digits are written of two that are equally near. -/
  tie : TieRule

namespace Layout

/-- JSON texts: positional from 1e-5 to below 1e16, exponents with their sign, ties to even digits.
-/
def json : Layout := ⟨fun e => -5 ≤ e && e < 16, true, true, .toEven⟩

/-- Geofence fields: positional from 1e-4 to below 1e16, bare exponents, ties up. -/
def field : Layout := ⟨fun e => -4 ≤ e && e < 16, true, false, .up⟩

/-- Plain text: never a power of ten, no point after a whole number, ties up. -/
def plain : Layout := ⟨fun _ => true, false, false, .up⟩

/-- Digits around the decimal point, with zeros where there are no digits. -/
def writePositional (layout : Layout) (s : Scientific) : List Char :=
  if s.exponent < 0 then
    ['0', '.'] ++ List.replicate (-s.exponent - 1).toNat '0' ++ s.digits
  else
    -- The digits are filled up with zeros as far as the point.
    let whole := s.exponent.toNat + 1
    let padded := s.digits ++ List.replicate (whole - s.digits.length) '0'
    let fraction := s.digits.drop whole
    padded.take whole ++
      (if fraction ≠ [] then '.' :: fraction else if layout.wholePoint then ['.', '0'] else [])

/-- One digit, the point before the others if there are any, and the power of ten. -/
def writeExponent (layout : Layout) (s : Scientific) : List Char :=
  let sign := if s.exponent < 0 then ['-'] else if layout.plusSign then ['+'] else []
  s.digits.take 1 ++ (if s.digits.length ≤ 1 then [] else '.' :: s.digits.drop 1) ++ ['e'] ++
    sign ++ Nat.toDigits 10 s.exponent.natAbs

/-- The numeral of a positive number. -/
def write (layout : Layout) (s : Scientific) : List Char :=
  if layout.positional s.exponent then layout.writePositional s else layout.writeExponent s

end Layout

/-- The shortest numeral of a finite number in a layout. -/
def Finite.write {F : BinaryFormat} (layout : Layout) (x : Finite F) : List Char :=
  (if x.negative then ['-'] else []) ++ layout.write (x.shortest layout.tie)

/-- The numeral of a number, or the word for what is none. -/
def Binary.write {F : BinaryFormat} (layout : Layout) : Binary F → List Char
  | .nan => ['N', 'a', 'N']
  | .infinite negative => (if negative then ['-'] else []) ++ ['i', 'n', 'f']
  | .finite x => x.write layout

end Warrant
