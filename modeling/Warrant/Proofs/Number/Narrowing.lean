import Warrant.Proofs.Number.Fewest
import Warrant.Proofs.Number.Literal
import Warrant.Proofs.Number.Midpoints

/-! Numbers of a fine format that are read in a coarse one. What is written of the number nearest to
a decimal stands for the same number as the decimal itself, unless the number is a midpoint of the
coarse format with the decimal and its digits on different sides. -/

namespace Warrant

/-- The number at a position is a given one exactly when it has the sign and the position. -/
theorem Binary.ofIndex_eq_finite_iff {F : BinaryFormat} {negative : Bool} {index : Nat}
    {x : Finite F} : (ofIndex negative index : Binary F) = .finite x ↔
      x.negative = negative ∧ x.index.val = index := by
  -- Beyond the grid no position stands for a finite number.
  rcases Nat.lt_or_ge index F.count with within | beyond
  · rw [ofIndex_of_lt within, Binary.finite.injEq]
    -- A finite number is its sign and its position.
    constructor
    · intro same
      rw [← same]
      exact ⟨rfl, rfl⟩
    · intro ⟨sign, place⟩
      subst sign place
      rfl
  · rw [ofIndex_of_le beyond]
    refine iff_of_false nofun fun found => ?_
    have within := x.index.isLt
    omega

namespace Decimal

variable {F : BinaryFormat}

/-- Every decimal has a nearest position, on the grid or beyond it. -/
theorem exists_isNearest (wide : 2 ≤ F.precision) (d : Decimal) :
    ∃ index, F.IsNearest index (d.size * 2 ^ F.depth) := by
  -- The quotient that is rounded has a positive denominator.
  have positive : 0 < Nat.pow 10 (-d.exponent).toNat := Nat.pow_pos (by decide)
  have rounded := BinaryFormat.isNearest_nearest wide
    (d.digits * Nat.pow 10 d.exponent.toNat * Nat.pow 2 F.depth) positive
  rw [size_eq_quotient] at rounded
  exact ⟨_, rounded⟩

/-- A decimal stands for the number with its sign at the nearest position. -/
theorem toBinary_eq_finite_iff (wide : 2 ≤ F.precision) {d : Decimal} {x : Finite F} :
    d.toBinary F = .finite x ↔
      x.negative = d.negative ∧ F.IsNearest x.index (d.size * 2 ^ F.depth) := by
  -- Rounding gives one nearest position, and there is no other.
  obtain ⟨index, nearest⟩ := d.exists_isNearest wide
  rw [toBinary_eq_ofIndex wide nearest, Binary.ofIndex_eq_finite_iff]
  refine and_congr_right fun _ => ⟨fun same => ?_, fun rounded => rounded.unique nearest⟩
  rw [same]
  exact nearest

/-- A decimal can be written with so many digits, beside the zeros at its ends. -/
def HasDigits (d : Decimal) (count : Nat) : Prop :=
  ∃ (significand : Nat) (power : Int), significand < 10 ^ count ∧ d.size = significand * 10 ^ power

end Decimal

namespace Finite

variable {fine coarse : BinaryFormat}

/-- The magnitude of a number as it is. -/
def size (y : Finite fine) : ℚ :=
  y.magnitude / 2 ^ fine.depth

/-- If a number is a midpoint of a coarser format, a decimal lies on the same side of it as the
digits that are written of the number: with one of the two the other does not round beyond the
position in front of the midpoint. -/
def KeepsSide (coarse : BinaryFormat) (tie : TieRule) (y : Finite fine) (d : Decimal) : Prop :=
  ∀ index, coarse.IsMidpoint index (y.size * 2 ^ coarse.depth) →
    (coarse.StaysAt index (d.size * 2 ^ coarse.depth) ↔
      coarse.StaysAt index ((y.shortest tie).size * 2 ^ coarse.depth))

/-- What is written of a number stands in a coarser format for the number with its sign that is
nearest to its digits. -/
theorem read?_write_eq_finite_iff (bits : 2 ≤ coarse.precision) (layout : Layout) (y : Finite fine)
    {x : Finite coarse} : Binary.read? coarse (y.write layout) = some (.finite x) ↔
      x.negative = y.negative ∧
        coarse.IsNearest x.index ((y.shortest layout.tie).size * 2 ^ coarse.depth) := by
  -- What is written is a numeral of the digits, which is read by rounding them.
  obtain ⟨numeral, text, proper, size⟩ := y.exists_numeral layout
  have read := Numeral.read?_text proper y.negative
  rw [text, Binary.read?_of_startsWithDigit (Numeral.startsWithDigit_text proper) read,
    Option.some.injEq, Decimal.toBinary_eq_finite_iff bits, size]
  rfl

/-- What is written of the number nearest to a decimal stands in a coarser format for the same
number as the decimal exactly when the sign and the side are kept. -/
theorem read?_write_iff_keepsSide (refines : fine.Refines coarse) (layout : Layout) {d : Decimal}
    {x : Finite coarse} (single : d.toBinary coarse = .finite x) {y : Finite fine}
    (nearest : fine.IsNearest y.index (d.size * 2 ^ fine.depth)) :
    Binary.read? coarse (y.write layout) = some (.finite x) ↔
      y.negative = d.negative ∧ y.KeepsSide coarse layout.tie d := by
  -- Both numbers round to a position of the coarser grid, and the sides decide whether it is one.
  obtain ⟨sign, once⟩ := (Decimal.toBinary_eq_finite_iff refines.bits).mp single
  -- The digits are a decimal, and as such they have a nearest position.
  obtain ⟨numeral, _, _, size⟩ := y.exists_numeral layout
  obtain ⟨twice, again⟩ := (numeral.decimal y.negative).exists_isNearest refines.bits
  rw [size] at again
  have sides := refines.nearest_eq_iff once again nearest (y.isNearest_shortest layout.tie)
  rw [read?_write_eq_finite_iff refines.bits, sign, eq_comm (a := d.negative)]
  refine and_congr_right fun _ => ⟨fun found => ?_, fun kept => ?_⟩
  · exact sides.mp (found.unique again)
  · rw [sides.mpr kept]
    exact again

/-- A decimal of at most fifteen digits is on the same side as the digits that are written of the
number nearest to it, since they are its own digits. -/
theorem keepsSide_of_hasDigits {y : Finite binary64} {d : Decimal} (short : d.HasDigits 15)
    (nearest : binary64.IsNearest y.index (d.size * 2 ^ binary64.depth)) (tie : TieRule) :
    y.KeepsSide binary32 tie d := by
  -- Fifteen digits are fewer than a run has positions, so that none of them is lost.
  intro index onto
  obtain ⟨significand, power, few, size⟩ := short
  have later : binary64.half ≤ y.index := by
    refine BinaryFormat.refines_binary64_binary32.half_le onto ?_
    rw [Finite.size, div_mul_cancel₀ _ (by positivity)]
    rfl
  have small : significand < binary64.half := Nat.lt_trans few (by decide)
  rw [size] at nearest
  rw [size, size_shortest tie (by decide) later small nearest]

end Finite

end Warrant
