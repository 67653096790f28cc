/-! Binary floating-point numbers, as signed positions on the grid of representable magnitudes. -/

namespace Warrant

/-- A binary format: the bits of a significand, the depth of the least magnitude 2 ^ (-depth), and
how often the spacing of the grid doubles above it. -/
structure BinaryFormat where
  precision : Nat
  depth : Nat
  doublings : Nat

/-- The format with 32 bits. -/
def binary32 : BinaryFormat := ⟨24, 149, 253⟩

/-- The format with 64 bits. -/
def binary64 : BinaryFormat := ⟨53, 1074, 2045⟩

/-- Division to the nearest integer, where a half goes to the even neighbour. -/
def roundHalfEven (numerator denominator : Nat) : Nat :=
  let quotient := numerator / denominator
  let twice := 2 * (numerator % denominator)
  if twice < denominator then quotient
  else if denominator < twice then quotient + 1
  else if quotient % 2 = 0 then quotient else quotient + 1

namespace BinaryFormat

/-- The number of magnitudes that share one spacing. -/
def half (F : BinaryFormat) : Nat :=
  Nat.pow 2 (F.precision - 1)

/-- The number of finite magnitudes, which are numbered upwards from zero. -/
def count (F : BinaryFormat) : Nat :=
  (F.doublings + 2) * F.half

/-- The magnitude at a position, in units of the least one: the spacing is one unit in the first two
runs of the grid and doubles with each further run. -/
def magnitude (F : BinaryFormat) (index : Nat) : Nat :=
  if index < F.half then index
  else (F.half + index % F.half) * Nat.pow 2 (index / F.half - 1)

/-- The position nearest to a quotient in units of the least magnitude, ties to the even position.
-/
def nearest (F : BinaryFormat) (numerator denominator : Nat) : Nat :=
  let quotient := numerator / denominator
  let run := if quotient < 2 * F.half then 0 else quotient.log2 - (F.precision - 1)
  run * F.half + roundHalfEven numerator (denominator * Nat.pow 2 run)

end BinaryFormat

/-- A finite number: a sign, which zero has too, and a position on the grid. -/
structure Finite (F : BinaryFormat) where
  negative : Bool
  index : Fin F.count
deriving DecidableEq

/-- A number of a binary format. -/
inductive Binary (F : BinaryFormat) where
  | nan
  | infinite (negative : Bool)
  | finite (value : Finite F)
deriving DecidableEq

namespace Finite

variable {F : BinaryFormat}

/-- The magnitude of a finite number, in units of the least one. -/
def magnitude (x : Finite F) : Nat :=
  F.magnitude x.index

/-- A number is zero at the first position, under either sign. -/
def isZero (x : Finite F) : Bool :=
  x.index.val == 0

/-- The bits of a finite number above those of its sign. -/
def bits (x : Finite F) : Nat :=
  (if x.negative then (F.doublings + 3) * F.half else 0) + x.index

end Finite

namespace Binary

variable {F : BinaryFormat}

/-- The number at a position, which is infinite beyond the end of the grid. -/
def ofIndex (negative : Bool) (index : Nat) : Binary F :=
  if within : index < F.count then .finite ⟨negative, ⟨index, within⟩⟩ else .infinite negative

/-- The bits of a number, whose infinities come right after the end of the grid. What is no number
has more than one pattern of bits. -/
def bits? : Binary F → Option Nat
  | .nan => none
  | .infinite negative => some ((if negative then (F.doublings + 3) * F.half else 0) + F.count)
  | .finite x => some x.bits

/-- Only positions on the grid are finite. -/
def isFinite : Binary F → Bool
  | .finite _ => true
  | _ => false

/-- The two zeros, and nothing else. -/
def isZero : Binary F → Bool
  | .finite x => x.isZero
  | _ => false

/-- Numerical equality: no number equals a number that is not one, and the two zeros are equal. -/
def isSame : Binary F → Binary F → Bool
  | .finite x, .finite y => x.index == y.index && (x.negative == y.negative || x.isZero)
  | .infinite a, .infinite b => a == b
  | _, _ => false

/-- The product with a positive finite factor, rounded once. -/
def scale (factor : Finite F) : Binary F → Binary F
  | .finite x => ofIndex x.negative (F.nearest (x.magnitude * factor.magnitude) (Nat.pow 2 F.depth))
  | x => x

/-- The quotient by a positive integer, rounded once. -/
def divide (divisor : Nat) : Binary F → Binary F
  | .finite x => ofIndex x.negative (F.nearest x.magnitude divisor)
  | x => x

/-- Within the grid a position is kept as it is. -/
theorem ofIndex_of_lt {negative : Bool} {index : Nat} (within : index < F.count) :
    (ofIndex negative index : Binary F) = .finite ⟨negative, ⟨index, within⟩⟩ := by
  -- The bound selects the finite branch.
  simp [ofIndex, within]

/-- Beyond the grid only the sign is kept. -/
theorem ofIndex_of_le {negative : Bool} {index : Nat} (beyond : F.count ≤ index) :
    (ofIndex negative index : Binary F) = .infinite negative := by
  -- The bound excludes the finite branch.
  simp [ofIndex, Nat.not_lt.2 beyond]

end Binary

end Warrant
