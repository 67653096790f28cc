/-! The twisted Edwards curve −x² + y² = 1 + d·x²·y² over the integers modulo 2 ^ 255 − 19. -/

namespace Warrant.Curve

/-- The prime of the field. -/
def prime : Nat := Nat.pow 2 255 - 19

instance : @NeZero Nat Zero.ofOfNat0 prime :=
  ⟨Nat.succ_ne_zero (prime - 1)⟩

/-- The integers modulo the prime. -/
abbrev Field := Fin prime

/-- The order of the base point. -/
def order : Nat := Nat.pow 2 252 + 27742317777372353535851937790883648493

/-- A power, by squaring for each of a number of binary digits of the exponent. -/
def power : Nat → Field → Nat → Field
  | 0, _, _ => 1
  | digits + 1, x, exponent =>
    let rest := power digits (x * x) (exponent / 2)
    if exponent % 2 = 0 then rest else x * rest

/-- The inverse of a number that is not zero. -/
def inverse (x : Field) : Field :=
  power 255 x (prime - 2)

/-- The coefficient of the curve, −121665 / 121666. -/
def coefficient : Field := -121665 * inverse 121666

/-- A square root of −1. -/
def rootOfMinusOne : Field :=
  power 255 2 ((prime - 1) / 4)

/-- A point (x : y : z : t) that stands for the coordinates x / z and y / z, whose product is t / z.
-/
structure Point where
  x : Field
  y : Field
  z : Field
  t : Field
deriving DecidableEq

namespace Point

/-- The neutral point, with the coordinates 0 and 1. -/
def zero : Point := ⟨0, 1, 1, 0⟩

/-- The sum of two points. The formula has no exceptions, as the coefficient is not a square. -/
def add (p q : Point) : Point :=
  let a := (p.y - p.x) * (q.y - q.x)
  let b := (p.y + p.x) * (q.y + q.x)
  let c := p.t * (coefficient + coefficient) * q.t
  let d := p.z * (q.z + q.z)
  ⟨(b - a) * (d - c), (d + c) * (b + a), (d - c) * (d + c), (b - a) * (b + a)⟩

/-- The point on the other side of the y axis. -/
def negate (p : Point) : Point :=
  ⟨-p.x, p.y, p.z, -p.t⟩

/-- A multiple of a point, by doubling for each of a number of binary digits of the factor. -/
def times : Nat → Nat → Point → Point
  | 0, _, _ => zero
  | digits + 1, factor, p =>
    let rest := times digits (factor / 2) (p.add p)
    if factor % 2 = 0 then rest else p.add rest

/-- A multiple of a point by a factor of at most 256 binary digits. -/
def multiply (factor : Nat) (p : Point) : Point :=
  times 256 factor p

end Point

/-- A square root of a quotient, if there is one: of the two the one that is even. -/
def rootOfQuotient? (numerator denominator : Field) : Option Field :=
  -- A power of the product gives the root, up to a root of minus one.
  let cube := denominator * denominator * denominator
  let root := numerator * cube *
    power 255 (numerator * cube * (cube * denominator)) ((prime - 5) / 8)
  let check := denominator * root * root
  -- Squaring tells which of the two it is, and whether there is a root at all.
  let candidate? :=
    if check = numerator then some root
    else if check = -numerator then some (root * rootOfMinusOne)
    else none
  candidate?.map fun root => if root.val % 2 = 0 then root else -root

namespace Point

/-- The point with a second coordinate, and with a first one that is odd or even: the number 255
bits wide is the second coordinate, which need not be reduced, and the bit above it tells which. -/
def ofEncoding? (code : Nat) : Option Point :=
  let y : Field := Fin.ofNat prime (code % Nat.pow 2 255)
  let square := y * y
  (rootOfQuotient? (square - 1) (coefficient * square + 1)).map fun root =>
    let x := if code / Nat.pow 2 255 % 2 = 0 then root else -root
    ⟨x, y, 1, x * y⟩

/-- The reduced second coordinate, and above it the lowest bit of the first. -/
def encoding (p : Point) : Nat :=
  let scale := inverse p.z
  (p.y * scale).val + (p.x * scale).val % 2 * Nat.pow 2 255

/-- The base point, whose second coordinate is 4 / 5 and whose first is even. -/
def base : Point :=
  (ofEncoding? (4 * inverse 5 : Field).val).getD zero

end Point

end Warrant.Curve
