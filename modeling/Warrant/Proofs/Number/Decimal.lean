import Mathlib.Algebra.Order.Field.Power
import Mathlib.Tactic.FieldSimp
import Mathlib.Tactic.Positivity
import Warrant.Number.Decimal
import Warrant.Proofs.Number.Rounding

/-! The binary number that a decimal numeral stands for is the one at the nearest position, also
where a power of ten decides by itself. -/

namespace Warrant

/-- A number that is not zero reaches the power of ten of its first digit. -/
theorem pow_length_toDigits_le {n : Nat} (positive : 0 < n) :
    10 ^ ((Nat.toDigits 10 n).length - 1) ≤ n := by
  -- Otherwise one digit less would do.
  by_contra short
  rcases Nat.eq_zero_or_pos ((Nat.toDigits 10 n).length - 1) with single | more
  · rw [single] at short
    omega
  · have less := (Nat.length_toDigits_le_iff (by decide) more).mpr (Nat.lt_of_not_le short)
    omega

namespace BinaryFormat

variable {F : BinaryFormat}

/-- Behind the last position stands the first power of two that is out of reach. -/
theorem magnitude_count (wide : 2 ≤ F.precision) :
    F.magnitude F.count = 2 ^ (F.precision + F.doublings) := by
  -- The last position is where one more run than there are doublings would start.
  have place : F.count = (F.doublings + 1) * F.half + F.half := by
    rw [count, ← Nat.succ_mul]
  have exponent : F.precision - 1 + (F.doublings + 1) = F.precision + F.doublings := by omega
  rw [place, F.magnitude_add (.inr le_rfl) (by omega), half, Nat.pow_eq, ← Nat.pow_add, exponent]

/-- Half a unit and anything below rounds to zero. -/
theorem isNearest_zero {value : ℚ} (nonneg : 0 ≤ value) (small : 2 * value ≤ 1) :
    F.IsNearest 0 value := by
  -- The first midpoint lies at half a unit or more.
  have one : 1 ≤ F.magnitude 0 + F.magnitude (0 + 1) := by
    have above : F.magnitude 0 < F.magnitude (0 + 1) := F.strictMono_magnitude (by decide)
    omega
  refine ⟨?_, ?_, fun odd => absurd odd (by decide)⟩
  · rw [F.magnitude_zero]
    simpa using nonneg
  · calc 2 * value ≤ 1 := small
      _ ≤ (F.magnitude 0 + F.magnitude (0 + 1) : ℕ) := by exact_mod_cast one

/-- What is as large as the magnitude behind the last position has no nearest position on the grid.
-/
theorem IsNearest.count_le {index : Nat} {value : ℚ} (nearest : F.IsNearest index value)
    (large : (F.magnitude F.count : ℚ) ≤ value) : F.count ≤ index :=
  (IsNearest.magnitude F F.count).le_of_le nearest large

end BinaryFormat

namespace Decimal

variable {F : BinaryFormat}

/-- The number that a numeral writes, without its sign. -/
def size (d : Decimal) : ℚ :=
  d.digits * 10 ^ d.exponent

/-- No number has a negative size. -/
theorem size_nonneg (d : Decimal) : 0 ≤ d.size := by
  unfold size
  positivity

/-- The number is below the power of ten that it reaches. -/
theorem size_lt (d : Decimal) : d.size < 10 ^ d.reach := by
  -- The digits are fewer than the power of ten with as many zeros.
  have digits : d.digits < 10 ^ (Nat.toDigits 10 d.digits).length :=
    (Nat.length_toDigits_le_iff (by decide) Nat.length_toDigits_pos).mp le_rfl
  calc d.size < (10 ^ (Nat.toDigits 10 d.digits).length : ℕ) * 10 ^ d.exponent :=
        mul_lt_mul_of_pos_right (by exact_mod_cast digits) (by positivity)
    _ = 10 ^ d.reach := by
        rw [reach, zpow_add₀ (by norm_num), zpow_natCast, Nat.cast_pow, Nat.cast_ofNat]

/-- The number is not below the power of ten of its first digit. -/
theorem le_size {d : Decimal} (present : d.digits ≠ 0) : 10 ^ (d.reach - 1) ≤ d.size := by
  -- The first digit is not zero, so that the digits come up to a power of ten.
  have digits := pow_length_toDigits_le (Nat.pos_of_ne_zero present)
  have long : 0 < (Nat.toDigits 10 d.digits).length := Nat.length_toDigits_pos
  calc (10 : ℚ) ^ (d.reach - 1)
      = (10 ^ ((Nat.toDigits 10 d.digits).length - 1) : ℕ) * 10 ^ d.exponent := by
        have exponent : d.reach - 1 =
            (((Nat.toDigits 10 d.digits).length - 1 : ℕ) : ℤ) + d.exponent := by
          rw [reach]
          omega
        rw [exponent, zpow_add₀ (by norm_num), zpow_natCast, Nat.cast_pow, Nat.cast_ofNat]
    _ ≤ d.size := mul_le_mul_of_nonneg_right (by exact_mod_cast digits) (by positivity)

/-- The quotient that is rounded is the number in units of the least magnitude. -/
theorem size_eq_quotient (d : Decimal) (depth : Nat) :
    ((d.digits * Nat.pow 10 d.exponent.toNat * Nat.pow 2 depth : ℕ) : ℚ) /
      (Nat.pow 10 (-d.exponent).toNat : ℕ) = d.size * 2 ^ depth := by
  -- A power of ten is a quotient of two powers with natural exponents.
  have power : (10 : ℚ) ^ d.exponent = 10 ^ d.exponent.toNat / 10 ^ (-d.exponent).toNat := by
    -- One of the two exponents is zero.
    rcases le_total 0 d.exponent with nonneg | nonpos
    · have none : (-d.exponent).toNat = 0 := by omega
      rw [none, pow_zero, div_one, ← zpow_natCast, Int.toNat_of_nonneg nonneg]
    · have none : d.exponent.toNat = 0 := by omega
      rw [none, pow_zero, one_div, ← zpow_natCast, ← zpow_neg, Int.toNat_of_nonneg (by omega),
        neg_neg]
  rw [size, power]
  simp only [Nat.pow_eq, Nat.cast_mul, Nat.cast_pow, Nat.cast_ofNat]
  ring

/-- A numeral stands for the number at the position that is nearest to what it writes. -/
theorem toBinary_eq_ofIndex (wide : 2 ≤ F.precision) {d : Decimal} {index : Nat}
    (nearest : F.IsNearest index (d.size * 2 ^ F.depth)) :
    d.toBinary F = .ofIndex d.negative index := by
  -- What is too small or too large is decided by the reach alone, and all else by rounding.
  rw [toBinary]
  split
  · -- What is far below half a unit rounds to zero, as zero does.
    rename_i low
    have zero : F.IsNearest 0 (d.size * 2 ^ F.depth) := by
      refine BinaryFormat.isNearest_zero (mul_nonneg d.size_nonneg (by positivity)) ?_
      rcases low with none | far
      · simp [size, none]
      · -- Half a unit is the power of two that is one below the depth.
        have reached : d.size ≤ 10 ^ (-((F.depth + 1 : ℕ) : ℤ)) :=
          d.size_lt.le.trans (zpow_le_zpow_right₀ (by norm_num) (by omega))
        calc 2 * (d.size * 2 ^ F.depth) = d.size * 2 ^ (F.depth + 1) := by ring
          _ ≤ 10 ^ (-((F.depth + 1 : ℕ) : ℤ)) * 10 ^ (F.depth + 1) :=
            mul_le_mul reached (pow_le_pow_left₀ (by norm_num) (by norm_num) _) (by positivity)
              (by positivity)
          _ = 1 := by rw [zpow_neg, zpow_natCast, inv_mul_cancel₀ (by positivity)]
    rw [zero.unique nearest]
  · split
    · -- What reaches far beyond the grid rounds to no position on it.
      rename_i present far
      have large : F.count ≤ index := by
        apply nearest.count_le
        have nonzero : d.digits ≠ 0 := fun zero => present (.inl zero)
        calc (F.magnitude F.count : ℚ) = 2 ^ (F.precision + F.doublings) := by
              rw [BinaryFormat.magnitude_count wide, Nat.cast_pow, Nat.cast_ofNat]
          _ ≤ 10 ^ (F.precision + F.doublings) :=
              pow_le_pow_left₀ (by norm_num) (by norm_num) _
          _ = 10 ^ ((F.precision + F.doublings : ℕ) : ℤ) := (zpow_natCast _ _).symm
          _ ≤ 10 ^ (d.reach - 1) := zpow_le_zpow_right₀ (by norm_num) (by omega)
          _ ≤ d.size := le_size nonzero
          _ ≤ d.size * 2 ^ F.depth :=
              le_mul_of_one_le_right d.size_nonneg (one_le_pow₀ (by norm_num))
      rw [Binary.ofIndex_of_le large]
    · -- Within the reach the quotient is rounded as it stands.
      have positive : 0 < Nat.pow 10 (-d.exponent).toNat := Nat.pow_pos (by decide)
      have rounded := BinaryFormat.isNearest_nearest wide
        (d.digits * Nat.pow 10 d.exponent.toNat * Nat.pow 2 F.depth) positive
      rw [size_eq_quotient] at rounded
      rw [rounded.unique nearest]

end Decimal

end Warrant
