import Warrant.Proofs.Number.Rounding

/-! Patterns of bits: each one in which the exponent is not full is that of one number, which is
finite, and finite numbers have no others. -/

namespace Warrant

namespace BinaryFormat

variable {F : BinaryFormat}

/-- What the bit of the sign counts in a pattern. -/
def signWeight (F : BinaryFormat) : Nat :=
  (F.doublings + 3) * F.half

/-- A pattern of finite numbers: below the bit of the sign there is a position on the grid. -/
def IsFinitePattern (F : BinaryFormat) (pattern : Nat) : Prop :=
  pattern < 2 * F.signWeight ∧ pattern % F.signWeight < F.count

/-- With 32 bits, eight of which are the exponent, finite numbers have some bit of these clear. -/
theorem isFinitePattern_binary32_iff {pattern : Nat} : binary32.IsFinitePattern pattern ↔
    pattern < 2 ^ 32 ∧ pattern / 2 ^ 23 % 2 ^ 8 ≠ 2 ^ 8 - 1 := by
  -- The weight of the sign and the end of the grid are numbers, and the rest is arithmetic on them.
  have weight : binary32.signWeight = 2147483648 := rfl
  have grid : binary32.count = 2139095040 := rfl
  rw [IsFinitePattern, weight, grid]
  omega

/-- The positions on the grid fit below the bit of the sign. -/
theorem count_lt_signWeight : F.count < F.signWeight :=
  Nat.mul_lt_mul_of_pos_right (Nat.lt_succ_self _) F.half_pos

end BinaryFormat

namespace Finite

variable {F : BinaryFormat}

/-- Below the bit of the sign stands the position. -/
theorem bits_mod_signWeight (x : Finite F) : x.bits % F.signWeight = x.index := by
  -- A position is smaller than the weight of the sign, which therefore goes in full or not at all.
  have within := Nat.lt_trans x.index.isLt F.count_lt_signWeight
  rw [bits]
  split
  · rw [← BinaryFormat.signWeight, Nat.add_mod_left, Nat.mod_eq_of_lt within]
  · rw [Nat.zero_add, Nat.mod_eq_of_lt within]

/-- The bit of the sign is set in negative numbers. -/
theorem signWeight_le_bits_iff (x : Finite F) : F.signWeight ≤ x.bits ↔ x.negative = true := by
  -- A position alone does not come up to the weight of the sign.
  have within := Nat.lt_trans x.index.isLt F.count_lt_signWeight
  rw [bits, ← BinaryFormat.signWeight]
  split
  · rename_i minus
    exact iff_of_true (Nat.le_add_right ..) minus
  · rename_i plus
    exact iff_of_false (by omega) plus

/-- Numbers with the same bits are the same. -/
theorem bits_injective : Function.Injective (bits : Finite F → Nat) := by
  intro x y same
  -- The position and the sign are told by the bits, and they are all that a number has.
  have place := x.bits_mod_signWeight
  have sign := x.signWeight_le_bits_iff
  rw [same, y.bits_mod_signWeight] at place
  rw [same, y.signWeight_le_bits_iff] at sign
  obtain ⟨negative, index⟩ := x
  obtain ⟨other, position⟩ := y
  rw [Fin.val_inj] at place
  rw [Finite.mk.injEq]
  exact ⟨(Bool.eq_iff_iff.mpr sign).symm, place.symm⟩

/-- The bits of a finite number are a finite pattern. -/
theorem isFinitePattern_bits (x : Finite F) : F.IsFinitePattern x.bits := by
  -- The bits are below twice the weight of the sign, and a remainder by it is a position.
  have within := Nat.lt_trans x.index.isLt F.count_lt_signWeight
  constructor
  · rw [bits, ← BinaryFormat.signWeight]
    split <;> omega
  · rw [bits_mod_signWeight]
    exact x.index.isLt

/-- Every finite pattern is that of a number. -/
theorem exists_bits_eq {pattern : Nat} (finite : F.IsFinitePattern pattern) :
    ∃ x : Finite F, x.bits = pattern := by
  obtain ⟨bound, within⟩ := finite
  -- The sign is set from its weight on, and what is left is the position.
  refine ⟨⟨decide (F.signWeight ≤ pattern), ⟨pattern % F.signWeight, within⟩⟩, ?_⟩
  simp only [bits, decide_eq_true_eq]
  rw [← BinaryFormat.signWeight]
  split
  · rename_i minus
    rw [Nat.mod_eq_sub_mod minus, Nat.mod_eq_of_lt (by omega)]
    omega
  · rename_i plus
    rw [Nat.zero_add, Nat.mod_eq_of_lt (by omega)]

end Finite

namespace Binary

variable {F : BinaryFormat}

/-- A number has a finite pattern exactly when it is finite. -/
theorem isFinite_iff_pattern {x : Binary F} :
    x.isFinite = true ↔ ∃ pattern, F.IsFinitePattern pattern ∧ x.bits? = some pattern := by
  -- Of the three kinds of numbers one has no bits, one has bits that are not finite, and one has
  -- both.
  cases x with
  | nan => exact iff_of_false nofun fun ⟨_, _, has⟩ => nomatch has
  | infinite negative =>
    refine iff_of_false nofun fun ⟨pattern, proper, has⟩ => ?_
    -- The exponent is full right behind the end of the grid.
    have beyond := F.count_lt_signWeight
    have place : pattern % F.signWeight = F.count := by
      rw [← Option.some.inj has, ← BinaryFormat.signWeight]
      split
      · rw [Nat.add_mod_left, Nat.mod_eq_of_lt beyond]
      · rw [Nat.zero_add, Nat.mod_eq_of_lt beyond]
    exact Nat.lt_irrefl _ (place ▸ proper.2)
  | finite x => exact iff_of_true rfl ⟨x.bits, x.isFinitePattern_bits, rfl⟩

/-- Every finite pattern is that of exactly one number. -/
theorem existsUnique_of_isFinitePattern {pattern : Nat} (proper : F.IsFinitePattern pattern) :
    ∃! x : Binary F, x.bits? = some pattern := by
  -- There is one such number, and any other one with these bits is finite as well.
  obtain ⟨x, has⟩ := Finite.exists_bits_eq proper
  refine ⟨.finite x, congrArg some has, fun y same => ?_⟩
  have within := isFinite_iff_pattern.mpr ⟨pattern, proper, same⟩
  cases y with
  | finite y => rw [Finite.bits_injective ((Option.some.inj same).trans has.symm)]
  | _ => cases within

/-- Finite numbers are one number exactly when they have the same bits. -/
theorem eq_and_isFinite_iff {x y : Binary F} : y = x ∧ x.isFinite = true ↔
    ∃ pattern, F.IsFinitePattern pattern ∧ x.bits? = some pattern ∧ y.bits? = some pattern := by
  -- A finite pattern belongs to one number only.
  rw [isFinite_iff_pattern]
  constructor
  · intro ⟨same, pattern, proper, has⟩
    rw [same]
    exact ⟨pattern, proper, has, has⟩
  · intro ⟨pattern, proper, has, also⟩
    exact ⟨(existsUnique_of_isFinitePattern proper).unique also has, pattern, proper, has⟩

end Binary

end Warrant
