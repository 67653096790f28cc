import Warrant.Number.Binary

/-! The fewest decimal digits that read back as a given binary number. -/

namespace Warrant

/-- Decimal digits without trailing zeros, and the power of ten of the first of them. -/
structure Scientific where
  digits : List Char
  exponent : Int
deriving DecidableEq

/-- Which of two equally near neighbours is taken: the one with an even last digit, or the greater.
-/
inductive TieRule where
  | toEven
  | up
deriving DecidableEq

/-- The neighbour taken of a value half way between a number and the next. -/
def TieRule.choose (tie : TieRule) (below : Nat) : Nat :=
  match tie with
  | .toEven => if below % 2 = 0 then below else below + 1
  | .up => below + 1

/-- An exact value with the interval of the reals that round to it, whose bounds are doubled so that
they are integers, and which holds its bounds or not. -/
structure Target where
  value : Nat
  low : Nat
  high : Nat
  closed : Bool

namespace Target

/-- A point of the decimal grid lies in the interval. -/
def holds (t : Target) (point : Nat) : Bool :=
  if t.closed then t.low ≤ 2 * point && 2 * point ≤ t.high
  else t.low < 2 * point && 2 * point < t.high

/-- The multiple of a step that lies in the interval: of the two neighbours of the value the nearer
one, and when they are equally near the one of the rule for ties. -/
def candidate? (t : Target) (tie : TieRule) (step : Nat) : Option Nat :=
  let below := t.value / step
  let rest := t.value % step
  match t.holds (below * step), t.holds ((below + 1) * step) with
  -- With both neighbours in the interval the distance decides.
  | true, true =>
    if 2 * rest < step then some below
    else if step < 2 * rest then some (below + 1)
    else some (tie.choose below)
  | true, false => some below
  | false, true => some (below + 1)
  | false, false => none

/-- Refines the grid until one of its points lies in the interval; the finest grid has the value. -/
def search (t : Target) (tie : TieRule) : Nat → Nat × Nat
  | 0 => (t.value, 0)
  | place + 1 =>
    match t.candidate? tie (Nat.pow 10 (place + 1)) with
    | some digits => (digits, place + 1)
    | none => t.search tie place

end Target

namespace Finite

variable {F : BinaryFormat}

/-- The interval around a number that is not zero, in units of 10 ^ (-depth), of which its magnitude
is a multiple. The bounds belong to the interval when the position is even, as ties go there. -/
def target (x : Finite F) : Target where
  value := x.magnitude * Nat.pow 5 F.depth
  low := (F.magnitude (x.index.val - 1) + x.magnitude) * Nat.pow 5 F.depth
  high := (x.magnitude + F.magnitude (x.index.val + 1)) * Nat.pow 5 F.depth
  closed := x.index.val % 2 = 0

/-- The shortest digits that read back as the number, and of those the nearest to it. -/
def shortest (tie : TieRule) (x : Finite F) : Scientific :=
  if x.isZero then ⟨['0'], 0⟩
  else
    let (digits, place) := x.target.search tie ((Nat.toDigits 10 x.target.value).length - 1)
    let text := Nat.toDigits 10 digits
    ⟨(text.reverse.dropWhile (· = '0')).reverse, (text.length - 1 + place : Nat) - (F.depth : Int)⟩

end Finite

end Warrant
