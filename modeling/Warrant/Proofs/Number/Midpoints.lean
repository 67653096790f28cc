import Warrant.Proofs.Number.Rounding

/-! Rounding to a grid decides on which side of its midpoints a value lies. A finer grid holds these
midpoints, so that two values with one nearest position there lie on different sides of a midpoint
only if that position is the midpoint. -/

namespace Warrant

namespace BinaryFormat

variable {F : BinaryFormat}

/-- A value is half way between a position and the next one. -/
def IsMidpoint (F : BinaryFormat) (index : Nat) (value : ℚ) : Prop :=
  2 * value = (F.magnitude index + F.magnitude (index + 1) : ℕ)

/-- A value does not round beyond a position: it lies below the midpoint behind the position, or on
the midpoint when the position is even. -/
def StaysAt (F : BinaryFormat) (index : Nat) (value : ℚ) : Prop :=
  2 * value < (F.magnitude index + F.magnitude (index + 1) : ℕ) ∨
    F.IsMidpoint index value ∧ index % 2 = 0

/-- What stays at a position is not above the midpoint behind it. -/
theorem StaysAt.le {index : Nat} {value : ℚ} (stays : F.StaysAt index value) :
    2 * value ≤ (F.magnitude index + F.magnitude (index + 1) : ℕ) := by
  rcases stays with below | ⟨onto, _⟩
  · exact below.le
  · exact onto.le

/-- What does not stay at a position is not below the midpoint behind it. -/
theorem le_of_not_staysAt {index : Nat} {value : ℚ} (moves : ¬ F.StaysAt index value) :
    (F.magnitude index + F.magnitude (index + 1) : ℕ) ≤ 2 * value := by
  by_contra below
  exact moves (.inl (not_le.mp below))

/-- Midpoints grow with their positions. -/
theorem midpoint_le_midpoint {low high : Nat} (order : low ≤ high) :
    ((F.magnitude low + F.magnitude (low + 1) : ℕ) : ℚ) ≤
      (F.magnitude high + F.magnitude (high + 1) : ℕ) := by
  -- Both neighbours of a midpoint grow with the position.
  have here : F.magnitude low ≤ F.magnitude high := F.strictMono_magnitude.monotone order
  have behind : F.magnitude (low + 1) ≤ F.magnitude (high + 1) :=
    F.strictMono_magnitude.monotone (by omega)
  exact_mod_cast Nat.add_le_add here behind

/-- The nearest position is not beyond another one exactly when the value stays at that one. -/
theorem IsNearest.le_iff_staysAt {nearest index : Nat} {value : ℚ}
    (rounded : F.IsNearest nearest value) : nearest ≤ index ↔ F.StaysAt index value := by
  -- The nearest position has the value below the midpoint behind it, and above the one in front of
  -- it.
  constructor
  · intro order
    rcases Nat.lt_or_ge nearest index with before | reached
    · -- The midpoint behind the nearest position comes before that of the other one.
      left
      have here : F.magnitude nearest < F.magnitude index := F.strictMono_magnitude before
      have behind : F.magnitude (nearest + 1) < F.magnitude (index + 1) :=
        F.strictMono_magnitude (by omega)
      calc 2 * value ≤ (F.magnitude nearest + F.magnitude (nearest + 1) : ℕ) := rounded.upper
        _ < (F.magnitude index + F.magnitude (index + 1) : ℕ) := by
          exact_mod_cast Nat.add_lt_add here behind
    · have same : nearest = index := Nat.le_antisymm order reached
      rw [same] at rounded
      rcases rounded.upper.lt_or_eq with below | onto
      · exact .inl below
      · -- Only an even position keeps its midpoint.
        refine .inr ⟨onto, ?_⟩
        by_contra odd
        have strict := (rounded.inside (by omega)).2
        linarith
  · intro stays
    by_contra beyond
    -- Otherwise the midpoint in front of the nearest position is the one behind the other.
    have previous : nearest - 1 + 1 = nearest := by omega
    have order := F.midpoint_le_midpoint (show index ≤ nearest - 1 by omega)
    rw [previous] at order
    have lower := rounded.lower
    rcases stays with below | ⟨onto, even⟩
    · -- A value below the midpoint is too small for what comes behind.
      linarith
    · -- On the midpoint the two midpoints would be one, which only an even position could keep.
      have least : ((F.magnitude index + F.magnitude (index + 1) : ℕ) : ℚ) =
          (F.magnitude (nearest - 1) + F.magnitude nearest : ℕ) := by
        rw [IsMidpoint] at onto
        linarith
      have whole : F.magnitude index + F.magnitude (index + 1) =
          F.magnitude (nearest - 1) + F.magnitude nearest := by exact_mod_cast least
      have here : F.magnitude index ≤ F.magnitude (nearest - 1) :=
        F.strictMono_magnitude.monotone (by omega)
      have behind : F.magnitude (index + 1) ≤ F.magnitude nearest :=
        F.strictMono_magnitude.monotone (by omega)
      have next : index + 1 = nearest := F.strictMono_magnitude.injective (by omega)
      have strict := (rounded.inside (by omega)).1
      rw [IsMidpoint] at onto
      linarith

/-- A small multiple of a power of two is the magnitude at some position. -/
theorem exists_magnitude_eq {factor : Nat} (small : factor ≤ 2 * F.half) (power : Nat) :
    ∃ index, F.magnitude index = factor * 2 ^ power := by
  -- By induction on the power, which is lowered until the factor is as large as those of a run.
  induction power generalizing factor with
  | zero => exact ⟨factor, by rw [F.magnitude_of_le small, Nat.pow_zero, Nat.mul_one]⟩
  | succ power ih =>
    rcases Nat.lt_or_ge factor F.half with low | high
    · obtain ⟨index, same⟩ := ih (show 2 * factor ≤ 2 * F.half by omega)
      refine ⟨index, ?_⟩
      rw [same, Nat.pow_succ]
      ring
    · exact ⟨(power + 1) * F.half + factor, F.magnitude_add (.inr high) small⟩

/-- Neighbours add up to an odd multiple of the spacing of their run. -/
theorem exists_midpoint_eq (F : BinaryFormat) (index : Nat) : ∃ run offset, offset < 2 * F.half ∧
    F.magnitude index + F.magnitude (index + 1) = (2 * offset + 1) * 2 ^ run := by
  -- Two neighbours are one spacing apart.
  obtain ⟨run, offset, rfl, spread, within⟩ := F.exists_run index
  refine ⟨run, offset, within, ?_⟩
  have later : run = 0 ∨ F.half ≤ offset + 1 := by omega
  rw [Nat.add_assoc, F.magnitude_add spread (by omega), F.magnitude_add later (by omega)]
  ring

/-- One format is finer than another, which has some bits itself: it has more bits, and so much more
depth that the midpoints of the other lie where its own spacing grows with the magnitude. -/
structure Refines (fine coarse : BinaryFormat) : Prop where
  bits : 2 ≤ coarse.precision
  precision : coarse.precision < fine.precision
  depth : coarse.depth + fine.precision ≤ fine.depth

/-- The 64 bits are finer than the 32. -/
theorem refines_binary64_binary32 : binary64.Refines binary32 :=
  ⟨by decide, by decide, by decide⟩

namespace Refines

variable {fine coarse : BinaryFormat} {index : Nat} {value : ℚ}

/-- The runs of the finer grid are at least twice as long. -/
theorem half_le_half (refines : fine.Refines coarse) : 2 * coarse.half ≤ fine.half := by
  -- One more bit doubles the length of a run.
  have bits := refines.bits
  have precision := refines.precision
  calc 2 * coarse.half = 2 ^ (coarse.precision - 1 + 1) := by
        rw [half, Nat.pow_eq, Nat.pow_succ, Nat.mul_comm]
    _ ≤ 2 ^ (fine.precision - 1) := Nat.pow_le_pow_right (by decide) (by omega)

/-- A midpoint in units of the finer grid. -/
theorem midpoint_eq (refines : fine.Refines coarse)
    (onto : coarse.IsMidpoint index (value * 2 ^ coarse.depth)) :
    value * 2 ^ fine.depth = ((coarse.magnitude index + coarse.magnitude (index + 1)) *
      2 ^ (fine.depth - coarse.depth - 1) : ℕ) := by
  -- The finer grid is deeper by at least one level, which makes up for the half.
  have precision := refines.precision
  have depth := refines.depth
  have exponent : fine.depth = coarse.depth + 1 + (fine.depth - coarse.depth - 1) := by omega
  rw [IsMidpoint] at onto
  rw [Nat.cast_mul, ← onto, Nat.cast_pow, Nat.cast_ofNat]
  conv_lhs => rw [exponent, pow_add, pow_succ]
  ring

/-- A midpoint stands on the finer grid. -/
theorem exists_magnitude_eq (refines : fine.Refines coarse)
    (onto : coarse.IsMidpoint index (value * 2 ^ coarse.depth)) :
    ∃ place, (fine.magnitude place : ℚ) = value * 2 ^ fine.depth := by
  -- An odd multiple of a power of two is short enough for a run of the finer grid.
  obtain ⟨run, offset, within, midpoint⟩ := coarse.exists_midpoint_eq index
  have half := refines.half_le_half
  obtain ⟨place, same⟩ := fine.exists_magnitude_eq
    (show 2 * offset + 1 ≤ 2 * fine.half by omega) (run + (fine.depth - coarse.depth - 1))
  refine ⟨place, ?_⟩
  rw [refines.midpoint_eq onto, midpoint, same, Nat.pow_add, Nat.mul_assoc]

/-- A midpoint stands behind the first run of the finer grid. -/
theorem half_le (refines : fine.Refines coarse) {place : Nat}
    (onto : coarse.IsMidpoint index (value * 2 ^ coarse.depth))
    (same : (fine.magnitude place : ℚ) = value * 2 ^ fine.depth) : fine.half ≤ place := by
  -- A midpoint is not the least magnitude, and in units of the finer grid it is a multiple of a
  -- power.
  have precision := refines.precision
  have depth := refines.depth
  rw [refines.midpoint_eq onto] at same
  have whole : fine.magnitude place = (coarse.magnitude index + coarse.magnitude (index + 1)) *
      2 ^ (fine.depth - coarse.depth - 1) := by exact_mod_cast same
  have above : coarse.magnitude 0 < coarse.magnitude (index + 1) :=
    coarse.strictMono_magnitude (Nat.succ_pos index)
  have first : fine.magnitude fine.half = fine.half := fine.magnitude_of_le (by omega)
  -- The start of the second run is a power of two that the depth allows for.
  rw [← fine.strictMono_magnitude.le_iff_le, first, whole]
  calc fine.half ≤ 2 ^ (fine.depth - coarse.depth - 1) :=
        Nat.pow_le_pow_right (by decide) (by omega)
    _ ≤ _ := Nat.le_mul_of_pos_left _ (by omega)

variable {once twice place : Nat} {first second : ℚ}

/-- Of two values with one nearest position on the finer grid, the one rounds to a smaller position
of the other grid only if the first is the midpoint behind it. -/
theorem isMidpoint_of_lt (refines : fine.Refines coarse)
    (left : coarse.IsNearest once (first * 2 ^ coarse.depth))
    (right : coarse.IsNearest twice (second * 2 ^ coarse.depth))
    (fineLeft : fine.IsNearest place (first * 2 ^ fine.depth))
    (fineRight : fine.IsNearest place (second * 2 ^ fine.depth)) (apart : once < twice) :
    coarse.IsMidpoint once (fine.magnitude place / 2 ^ fine.depth * 2 ^ coarse.depth) := by
  -- One value stays at the first position, and the other one is beyond it.
  have before := (left.le_iff_staysAt.mp (Nat.le_refl once)).le
  have behind := le_of_not_staysAt (mt right.le_iff_staysAt.mpr (Nat.not_le.mpr apart))
  -- The midpoint as a value lies between the two.
  obtain ⟨middle, onto⟩ : ∃ middle : ℚ, coarse.IsMidpoint once (middle * 2 ^ coarse.depth) := by
    refine ⟨(coarse.magnitude once + coarse.magnitude (once + 1) : ℕ) / 2 / 2 ^ coarse.depth, ?_⟩
    rw [IsMidpoint, div_mul_cancel₀ _ (by positivity), mul_div_cancel₀ _ (by norm_num)]
  have power : (0 : ℚ) < 2 ^ coarse.depth := by positivity
  have low : first ≤ middle := by
    rw [← onto] at before
    exact le_of_mul_le_mul_right (by linarith) power
  have high : middle ≤ second := by
    rw [← onto] at behind
    exact le_of_mul_le_mul_right (by linarith) power
  -- The finer format has the midpoint among its magnitudes.
  obtain ⟨spot, same⟩ := refines.exists_magnitude_eq onto
  -- Rounding keeps the order, so that the one nearest position is that of the midpoint.
  have exact := IsNearest.magnitude fine spot
  rw [same] at exact
  have notAbove : place ≤ spot :=
    fineLeft.le_of_le exact (mul_le_mul_of_nonneg_right low (by positivity))
  have notBelow : spot ≤ place :=
    exact.le_of_le fineRight (mul_le_mul_of_nonneg_right high (by positivity))
  rw [Nat.le_antisymm notAbove notBelow, same, mul_div_cancel_right₀ _ (by positivity)]
  exact onto

/-- Two values with one nearest position on the finer grid round to one position of the other grid
exactly when, in case the first is a midpoint, they lie on the same side of it. -/
theorem nearest_eq_iff (refines : fine.Refines coarse)
    (left : coarse.IsNearest once (first * 2 ^ coarse.depth))
    (right : coarse.IsNearest twice (second * 2 ^ coarse.depth))
    (fineLeft : fine.IsNearest place (first * 2 ^ fine.depth))
    (fineRight : fine.IsNearest place (second * 2 ^ fine.depth)) :
    once = twice ↔ ∀ index,
      coarse.IsMidpoint index (fine.magnitude place / 2 ^ fine.depth * 2 ^ coarse.depth) →
        (coarse.StaysAt index (first * 2 ^ coarse.depth) ↔
          coarse.StaysAt index (second * 2 ^ coarse.depth)) := by
  -- Only a midpoint between the two values could part them.
  constructor
  · intro same index _
    rw [← left.le_iff_staysAt, ← right.le_iff_staysAt, same]
  · intro sides
    rcases Nat.lt_trichotomy once twice with apart | same | apart
    · have onto := refines.isMidpoint_of_lt left right fineLeft fineRight apart
      have stays := (sides once onto).mp (left.le_iff_staysAt.mp (Nat.le_refl once))
      exact absurd (right.le_iff_staysAt.mpr stays) (Nat.not_le.mpr apart)
    · exact same
    · have onto := refines.isMidpoint_of_lt right left fineRight fineLeft apart
      have stays := (sides twice onto).mpr (right.le_iff_staysAt.mp (Nat.le_refl twice))
      exact absurd (left.le_iff_staysAt.mpr stays) (Nat.not_le.mpr apart)

end Refines

end BinaryFormat

end Warrant
