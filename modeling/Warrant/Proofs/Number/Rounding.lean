import Mathlib.Algebra.Order.Field.Basic
import Mathlib.Data.Rat.Cast.Order
import Mathlib.Tactic.Linarith
import Mathlib.Tactic.Ring
import Warrant.Number.Binary

/-! Rounding takes the nearest position of the grid. Each exact value has one such position, and
greater values have no smaller ones. -/

namespace Warrant

/-- The rounded quotient is the whole quotient or the number after it. -/
theorem roundHalfEven_mem (numerator denominator : Nat) :
    numerator / denominator ≤ roundHalfEven numerator denominator ∧
      roundHalfEven numerator denominator ≤ numerator / denominator + 1 := by
  -- The remainder decides between the two.
  unfold roundHalfEven
  -- Whichever way the remainder decides, it is one of the two.
  dsimp only
  split
  · omega
  · split
    · omega
    · split <;> omega

/-- The rounded quotient is at most a half away, and less than a half when it is odd. -/
theorem roundHalfEven_near (numerator : Nat) {denominator : Nat} (positive : 0 < denominator) :
    let rounded := roundHalfEven numerator denominator
    (2 * (rounded * denominator) ≤ 2 * numerator + denominator ∧
      2 * numerator ≤ 2 * (rounded * denominator) + denominator) ∧
    (rounded % 2 = 1 → 2 * (rounded * denominator) < 2 * numerator + denominator ∧
      2 * numerator < 2 * (rounded * denominator) + denominator) := by
  -- The numerator is made of its quotient and its remainder, and the quotient may be raised by one.
  have parts : numerator / denominator * denominator + numerator % denominator = numerator :=
    Nat.div_add_mod' numerator denominator
  have raised : (numerator / denominator + 1) * denominator =
      numerator / denominator * denominator + denominator := Nat.succ_mul ..
  have small : numerator % denominator < denominator := Nat.mod_lt _ positive
  unfold roundHalfEven
  -- In each case of the remainder the four bounds are linear in the product and the remainder.
  dsimp only
  split
  · omega
  · split
    · rw [raised]
      omega
    · split
      · omega
      · rw [raised]
        omega

namespace BinaryFormat

variable (F : BinaryFormat)

/-- There is a position in every run of the grid. -/
theorem half_pos : 0 < F.half :=
  Nat.pow_pos (by decide)

/-- The positions of a run, with the one behind it, are spaced evenly. The first run starts at zero
and any other after as many positions as it has. -/
theorem magnitude_add {run offset : Nat} (spread : run = 0 ∨ F.half ≤ offset)
    (within : offset ≤ 2 * F.half) :
    F.magnitude (run * F.half + offset) = offset * 2 ^ run := by
  -- A position is cut into its run and what it adds to the start of that.
  have positive := F.half_pos
  -- The offset lies below the first doubling, in the run itself, or just behind it.
  rcases Nat.lt_or_ge offset F.half with low | high
  · have first : run = 0 := by omega
    subst first
    simp [magnitude, low]
  · rcases Nat.lt_or_ge offset (2 * F.half) with inside | behind
    · -- Inside of the run the quotient is the run, and the remainder the place in it.
      have place : run * F.half + offset = (offset - F.half) + F.half * (run + 1) := by
        rw [Nat.mul_add, Nat.mul_comm F.half run]
        omega
      have short : offset - F.half < F.half := by omega
      have beyond : ¬ offset - F.half + F.half * (run + 1) < F.half := by
        rw [Nat.mul_add]
        omega
      rw [place, magnitude, if_neg beyond, Nat.add_mul_mod_self_left, Nat.mod_eq_of_lt short,
        Nat.add_mul_div_left _ _ positive, Nat.div_eq_of_lt short]
      simp [Nat.add_sub_cancel' high]
    · -- Just behind the run the next one starts, of which the first step is twice as wide.
      have last : offset = 2 * F.half := by omega
      have place : run * F.half + offset = F.half * (run + 2) := by
        rw [last, Nat.mul_add, Nat.mul_comm F.half run, Nat.mul_comm 2]
      have beyond : ¬ F.half * (run + 2) < F.half := by
        rw [Nat.mul_add]
        omega
      rw [place, magnitude, if_neg beyond, Nat.mul_mod_right, Nat.mul_div_cancel_left _ positive,
        last]
      simp only [Nat.pow_eq, Nat.add_zero, Nat.add_one_sub_one]
      rw [Nat.pow_succ, Nat.mul_comm 2 F.half, Nat.mul_assoc, Nat.mul_comm 2 (2 ^ run)]

/-- Up to the first doubling the magnitudes are the positions. -/
theorem magnitude_of_le {index : Nat} (low : index ≤ 2 * F.half) : F.magnitude index = index := by
  have first : F.magnitude (0 * F.half + index) = index * 2 ^ 0 := F.magnitude_add (.inl rfl) low
  simpa using first

/-- Every position lies in a run, which is the first one or as far in it as it has positions. -/
theorem exists_run (index : Nat) : ∃ run offset, index = run * F.half + offset ∧
    (run = 0 ∨ F.half ≤ offset) ∧ offset < 2 * F.half := by
  -- The quotient by the length of a run tells the run.
  have positive := F.half_pos
  rcases Nat.lt_or_ge index F.half with low | high
  · exact ⟨0, index, by omega, .inl rfl, by omega⟩
  · -- The run is one less than the quotient, since the first two runs share a spacing.
    have parts := Nat.div_add_mod' index F.half
    have small := Nat.mod_lt index positive
    have started : 0 < index / F.half := Nat.div_pos high positive
    obtain ⟨run, quotient⟩ : ∃ run, index / F.half = run + 1 := ⟨index / F.half - 1, by omega⟩
    rw [quotient, Nat.succ_mul] at parts
    exact ⟨run, F.half + index % F.half, by omega, .inr (by omega), by omega⟩

/-- Magnitudes grow from each position to the next. -/
theorem strictMono_magnitude : StrictMono F.magnitude := by
  -- It is enough to compare neighbours.
  apply strictMono_nat_of_lt_succ
  intro index
  -- Both positions belong to the run of the first one.
  obtain ⟨run, offset, rfl, spread, within⟩ := F.exists_run index
  have later : run = 0 ∨ F.half ≤ offset + 1 := by omega
  rw [Nat.add_assoc, F.magnitude_add spread (by omega), F.magnitude_add later (by omega)]
  exact Nat.mul_lt_mul_of_pos_right (Nat.lt_succ_self offset) (by positivity)

/-- The next magnitude is further away by the spacing of the run, or by more. -/
theorem le_magnitude_succ {run offset : Nat} (spread : run = 0 ∨ F.half ≤ offset)
    (within : offset ≤ 2 * F.half) :
    (offset + 1) * 2 ^ run ≤ F.magnitude (run * F.half + offset + 1) := by
  -- Within a run the spacing is even, so that only its end matters.
  have positive := F.half_pos
  rcases Nat.lt_or_ge offset (2 * F.half) with inside | behind
  · have next : run = 0 ∨ F.half ≤ offset + 1 := by omega
    rw [Nat.add_assoc, F.magnitude_add next (by omega)]
  · -- Behind the last position of a run the spacing doubles.
    have last : offset = 2 * F.half := by omega
    have place : run * F.half + offset + 1 = (run + 1) * F.half + (F.half + 1) := by
      rw [last, Nat.succ_mul run]
      omega
    rw [place, F.magnitude_add (by omega) (by omega), last, Nat.pow_succ]
    calc (2 * F.half + 1) * 2 ^ run
        ≤ (2 * F.half + 2) * 2 ^ run := Nat.mul_le_mul_right _ (by omega)
      _ = (F.half + 1) * (2 ^ run * 2) := by ring

/-- The first position is that of zero. -/
@[simp] theorem magnitude_zero : F.magnitude 0 = 0 := by
  simp [magnitude, F.half_pos]

/-- A position is the nearest one to an exact value when the value lies between the midpoints to its
neighbours, and on a midpoint only if the position is even. -/
structure IsNearest (index : Nat) (value : ℚ) : Prop where
  lower : (F.magnitude (index - 1) + F.magnitude index : ℕ) ≤ 2 * value
  upper : 2 * value ≤ (F.magnitude index + F.magnitude (index + 1) : ℕ)
  inside : index % 2 = 1 → (F.magnitude (index - 1) + F.magnitude index : ℕ) < 2 * value ∧
    2 * value < (F.magnitude index + F.magnitude (index + 1) : ℕ)

variable {F}

namespace IsNearest

/-- Greater values do not have smaller nearest positions. -/
theorem le_of_le {low high : Nat} {small large : ℚ} (left : F.IsNearest low small)
    (right : F.IsNearest high large) (order : small ≤ large) : low ≤ high := by
  -- Otherwise the position of the greater value comes first.
  by_contra inverted
  have before : high < low := by omega
  -- The upper midpoint of the one position is not above the lower midpoint of the other.
  have first : F.magnitude high ≤ F.magnitude (low - 1) :=
    F.strictMono_magnitude.monotone (by omega)
  have second : F.magnitude (high + 1) ≤ F.magnitude low :=
    F.strictMono_magnitude.monotone (by omega)
  have midpoints : ((F.magnitude high + F.magnitude (high + 1) : ℕ) : ℚ) ≤
      (F.magnitude (low - 1) + F.magnitude low : ℕ) := by
    exact_mod_cast Nat.add_le_add first second
  have upper := right.upper
  have lower := left.lower
  -- So both values are the one midpoint between neighbours, of which one is odd.
  have same : F.magnitude (high + 1) = F.magnitude low := by
    have equal : ((F.magnitude high + F.magnitude (high + 1) : ℕ) : ℚ) =
        (F.magnitude (low - 1) + F.magnitude low : ℕ) := by linarith
    have whole : F.magnitude high + F.magnitude (high + 1) =
        F.magnitude (low - 1) + F.magnitude low := by exact_mod_cast equal
    omega
  have next : high + 1 = low := F.strictMono_magnitude.injective same
  -- The even one of the neighbors keeps the midpoint, and the odd one cannot have it.
  rcases Nat.mod_two_eq_zero_or_one low with even | odd
  · have strict := (right.inside (by omega)).2
    linarith
  · have strict := (left.inside odd).1
    linarith

/-- A value has one nearest position. -/
theorem unique {first second : Nat} {value : ℚ} (left : F.IsNearest first value)
    (right : F.IsNearest second value) : first = second :=
  Nat.le_antisymm (left.le_of_le right le_rfl) (right.le_of_le left le_rfl)

/-- The magnitude at a position is nearest to that position. -/
theorem magnitude (F : BinaryFormat) (index : Nat) : F.IsNearest index (F.magnitude index) := by
  -- Neighbours are apart, except that nothing stands in front of the first position.
  have above : F.magnitude index < F.magnitude (index + 1) :=
    F.strictMono_magnitude (Nat.lt_succ_self index)
  have below : F.magnitude (index - 1) ≤ F.magnitude index :=
    F.strictMono_magnitude.monotone (Nat.sub_le index 1)
  have strict : index % 2 = 1 → F.magnitude (index - 1) < F.magnitude index :=
    fun odd => F.strictMono_magnitude (by omega)
  refine ⟨?_, ?_, fun odd => ⟨?_, ?_⟩⟩
  · exact_mod_cast (by omega : F.magnitude (index - 1) + F.magnitude index ≤
      2 * F.magnitude index)
  · exact_mod_cast (by omega : 2 * F.magnitude index ≤
      F.magnitude index + F.magnitude (index + 1))
  · have apart := strict odd
    exact_mod_cast (by omega : F.magnitude (index - 1) + F.magnitude index <
      2 * F.magnitude index)
  · exact_mod_cast (by omega : 2 * F.magnitude index <
      F.magnitude index + F.magnitude (index + 1))

end IsNearest

/-- With two bits or more the runs have an even number of positions. -/
theorem half_even (wide : 2 ≤ F.precision) : F.half % 2 = 0 := by
  -- A run has as many positions as a power of two, and not the zeroth one.
  obtain ⟨more, bits⟩ : ∃ more, F.precision - 1 = more + 1 := ⟨F.precision - 2, by omega⟩
  rw [half, bits, Nat.pow_eq, Nat.pow_succ]
  exact Nat.mul_mod_left _ 2

/-- A position is nearest to a quotient when the doubled numerator lies between the midpoints,
multiplied by the denominator. -/
theorem isNearest_div_iff {index numerator denominator : Nat} (positive : 0 < denominator) :
    F.IsNearest index (numerator / denominator) ↔
      ((F.magnitude (index - 1) + F.magnitude index) * denominator ≤ 2 * numerator ∧
        2 * numerator ≤ (F.magnitude index + F.magnitude (index + 1)) * denominator) ∧
      (index % 2 = 1 →
        (F.magnitude (index - 1) + F.magnitude index) * denominator < 2 * numerator ∧
        2 * numerator < (F.magnitude index + F.magnitude (index + 1)) * denominator) := by
  -- A denominator can be moved to the other side of a comparison.
  have scale : (0 : ℚ) < denominator := by exact_mod_cast positive
  -- Each comparison with the quotient is one with the numerator.
  have notAbove : ∀ bound : ℕ, (bound : ℚ) ≤ 2 * (numerator / denominator) ↔
      bound * denominator ≤ 2 * numerator := by
    intro bound
    rw [← mul_div_assoc, le_div_iff₀ scale]
    exact_mod_cast Iff.rfl
  have notBelow : ∀ bound : ℕ, 2 * ((numerator : ℚ) / denominator) ≤ bound ↔
      2 * numerator ≤ bound * denominator := by
    intro bound
    rw [← mul_div_assoc, div_le_iff₀ scale]
    exact_mod_cast Iff.rfl
  constructor
  · -- For an odd position the strict comparisons are the denials of the other two.
    intro nearest
    refine ⟨⟨(notAbove _).mp nearest.lower, (notBelow _).mp nearest.upper⟩, fun odd => ?_⟩
    obtain ⟨low, high⟩ := nearest.inside odd
    rw [← not_le, notBelow] at low
    rw [← not_le, notAbove] at high
    exact ⟨by omega, by omega⟩
  · intro ⟨⟨low, high⟩, strict⟩
    refine ⟨(notAbove _).mpr low, (notBelow _).mpr high, fun odd => ?_⟩
    obtain ⟨below, above⟩ := strict odd
    rw [← not_le, notBelow, ← not_le, notAbove]
    exact ⟨by omega, by omega⟩

/-- The midpoint below a position of a run is not above a quotient that is at most half a step below
the position, and is below it where it has to be. A quotient in a later run reaches its start. -/
theorem lower_midpoint_le {run offset numerator denominator : Nat} (positive : 0 < denominator)
    (spread : run = 0 ∨ F.half ≤ offset) (within : offset ≤ 2 * F.half)
    (reached : run = 0 ∨ F.half * (denominator * 2 ^ run) ≤ numerator)
    (near : 2 * (offset * (denominator * 2 ^ run)) ≤ 2 * numerator + denominator * 2 ^ run)
    (strict : offset % 2 = 1 →
      2 * (offset * (denominator * 2 ^ run)) < 2 * numerator + denominator * 2 ^ run) :
    F.magnitude (run * F.half + offset - 1) * denominator + offset * (denominator * 2 ^ run) ≤
        2 * numerator ∧
      (offset % 2 = 1 → F.magnitude (run * F.half + offset - 1) * denominator +
        offset * (denominator * 2 ^ run) < 2 * numerator) := by
  -- The position before is none, in the run before, or in the same run.
  rcases Nat.eq_zero_or_pos offset with zero | some
  · -- Nothing is before the first position.
    have first : run = 0 := by have := F.half_pos; omega
    subst zero first
    simp
  · by_cases start : run ≠ 0 ∧ offset = F.half
    · -- The quotient is not below the start of the run, before which the steps are smaller.
      have floor : F.half * (denominator * 2 ^ run) ≤ numerator := by omega
      have before : F.magnitude (run * F.half + offset - 1) * denominator <
          offset * (denominator * 2 ^ run) := by
        calc F.magnitude (run * F.half + offset - 1) * denominator
            < F.magnitude (run * F.half + offset) * denominator :=
              Nat.mul_lt_mul_of_pos_right (F.strictMono_magnitude (by omega)) positive
          _ = offset * (denominator * 2 ^ run) := by
              rw [F.magnitude_add spread within]
              ring
      rw [start.2] at before ⊢
      exact ⟨by omega, fun _ => by omega⟩
    · -- Inside a run the position before is one step below.
      obtain ⟨less, rfl⟩ : ∃ less, offset = less + 1 := ⟨offset - 1, by omega⟩
      have before : F.magnitude (run * F.half + (less + 1) - 1) * denominator =
          less * (denominator * 2 ^ run) := by
        rw [← Nat.add_assoc, Nat.add_sub_cancel, F.magnitude_add (by omega) (by omega)]
        ring
      rw [before]
      rw [Nat.succ_mul less] at near strict ⊢
      exact ⟨by omega, fun odd => by have := strict odd; omega⟩

/-- A rounded quotient of a run stands for the nearest position to the whole quotient. The run is
the first one, or the quotient reaches as far as its start. -/
theorem isNearest_roundHalfEven (wide : 2 ≤ F.precision) {run numerator denominator : Nat}
    (positive : 0 < denominator)
    (reached : run = 0 ∨ F.half * (denominator * 2 ^ run) ≤ numerator)
    (within : numerator < 2 * F.half * (denominator * 2 ^ run)) :
    F.IsNearest (run * F.half + roundHalfEven numerator (denominator * 2 ^ run))
      (numerator / denominator) := by
  -- The rounded quotient counts steps of the run, and lies between two midpoints as such.
  have step : 0 < denominator * 2 ^ run := by positivity
  obtain ⟨⟨low, high⟩, strict⟩ := roundHalfEven_near numerator step
  obtain ⟨atLeast, atMost⟩ := roundHalfEven_mem numerator (denominator * 2 ^ run)
  have quotient : numerator / (denominator * 2 ^ run) < 2 * F.half :=
    (Nat.div_lt_iff_lt_mul step).mpr within
  have spread : run = 0 ∨ F.half ≤ numerator / (denominator * 2 ^ run) :=
    reached.imp_right (Nat.le_div_iff_mul_le step).mpr
  generalize roundHalfEven numerator (denominator * 2 ^ run) = offset at *
  -- The position is as even as the offset.
  obtain ⟨pairs, even⟩ : ∃ pairs, F.half = 2 * pairs :=
    ⟨F.half / 2, by have := half_even wide; omega⟩
  have parity : (run * F.half + offset) % 2 = offset % 2 := by
    rw [even, Nat.mul_left_comm, Nat.mul_add_mod]
  -- The magnitudes at the position and behind it, multiplied by the denominator.
  have here : F.magnitude (run * F.half + offset) * denominator =
      offset * (denominator * 2 ^ run) := by
    rw [F.magnitude_add (by omega) (by omega)]
    ring
  have behind : (offset + 1) * (denominator * 2 ^ run) ≤
      F.magnitude (run * F.half + offset + 1) * denominator := by
    calc (offset + 1) * (denominator * 2 ^ run)
        = (offset + 1) * 2 ^ run * denominator := by ring
      _ ≤ F.magnitude (run * F.half + offset + 1) * denominator :=
        Nat.mul_le_mul_right _ (F.le_magnitude_succ (by omega) (by omega))
  rw [Nat.succ_mul] at behind
  rw [isNearest_div_iff positive, parity, Nat.add_mul, Nat.add_mul, here]
  -- The upper midpoint is half a step above or more.
  have above : 2 * numerator ≤ offset * (denominator * 2 ^ run) +
      F.magnitude (run * F.half + offset + 1) * denominator ∧
      (offset % 2 = 1 → 2 * numerator < offset * (denominator * 2 ^ run) +
        F.magnitude (run * F.half + offset + 1) * denominator) :=
    ⟨by omega, fun odd => by have := (strict odd).2; omega⟩
  obtain ⟨below, strictlyBelow⟩ := lower_midpoint_le positive (by omega) (by omega) reached low
    fun odd => (strict odd).1
  exact ⟨⟨below, above.1⟩, fun odd => ⟨strictlyBelow odd, above.2 odd⟩⟩

/-- Rounding takes the nearest position. -/
theorem isNearest_nearest (wide : 2 ≤ F.precision) (numerator : Nat) {denominator : Nat}
    (positive : 0 < denominator) :
    F.IsNearest (F.nearest numerator denominator) (numerator / denominator) := by
  -- The whole quotient tells the run, and the run the step to which the rest is rounded.
  have parts := Nat.div_add_mod' numerator denominator
  have small := Nat.mod_lt numerator positive
  rw [nearest]
  split
  · -- Below the first doubling the steps are single units.
    rename_i low
    have within : numerator < 2 * F.half * (denominator * 2 ^ 0) := by
      rw [Nat.pow_zero, Nat.mul_one]
      exact (Nat.div_lt_iff_lt_mul positive).mp low
    exact isNearest_roundHalfEven wide positive (.inl rfl) within
  · -- Above it the step is the power of two that leaves as many bits as there are.
    rename_i high
    generalize quotient : numerator / denominator = whole at *
    have started : 0 < whole := by have := F.half_pos; omega
    -- The number of bits is what the run is counted by.
    have bits : whole.log2 = (F.precision - 1) + (whole.log2 - (F.precision - 1)) := by
      have reach : 2 ^ F.precision ≤ whole := by
        have doubled : 2 ^ F.precision = 2 * F.half := by
          rw [half, Nat.pow_eq, ← Nat.pow_succ']
          congr 1
          omega
        omega
      have := (Nat.le_log2 (by omega)).mpr reach
      omega
    -- The quotient lies in the run, which starts at a power of two and ends at the next one.
    have floor : F.half * 2 ^ (whole.log2 - (F.precision - 1)) ≤ whole := by
      rw [half, Nat.pow_eq, ← Nat.pow_add, ← bits]
      exact Nat.log2_self_le (by omega)
    have ceiling : whole < 2 * F.half * 2 ^ (whole.log2 - (F.precision - 1)) := by
      rw [half, Nat.pow_eq, Nat.mul_assoc, ← Nat.pow_add, ← bits, ← Nat.pow_succ']
      exact Nat.lt_log2_self
    -- Multiplied by the denominator, the two bounds are those of the numerator.
    refine isNearest_roundHalfEven wide positive (.inr ?_) ?_
    · calc F.half * (denominator * 2 ^ (whole.log2 - (F.precision - 1)))
          = F.half * 2 ^ (whole.log2 - (F.precision - 1)) * denominator := by ring
        _ ≤ whole * denominator := Nat.mul_le_mul_right _ floor
        _ ≤ numerator := by omega
    · calc numerator < (whole + 1) * denominator := by
            rw [Nat.succ_mul]
            omega
        _ ≤ 2 * F.half * 2 ^ (whole.log2 - (F.precision - 1)) * denominator :=
            Nat.mul_le_mul_right _ ceiling
        _ = 2 * F.half * (denominator * 2 ^ (whole.log2 - (F.precision - 1))) := by ring

/-- Greater quotients do not round to smaller positions. -/
theorem nearest_le_nearest (wide : 2 ≤ F.precision) {small large denominator : Nat}
    (positive : 0 < denominator) (order : small ≤ large) :
    F.nearest small denominator ≤ F.nearest large denominator := by
  -- The quotients are in order, and rounding keeps the order.
  have quotients : (small : ℚ) / denominator ≤ large / denominator :=
    div_le_div_of_nonneg_right (by exact_mod_cast order) (Nat.cast_nonneg denominator)
  exact (isNearest_nearest wide small positive).le_of_le (isNearest_nearest wide large positive)
    quotients

/-- A quotient of a magnitude does not round to a greater position than that of the magnitude. -/
theorem nearest_magnitude_le (wide : 2 ≤ F.precision) (index : Nat) {divisor : Nat}
    (positive : 0 < divisor) : F.nearest (F.magnitude index) divisor ≤ index := by
  -- The quotient is not above the magnitude, which rounds to its own position.
  have smaller : (F.magnitude index : ℚ) / divisor ≤ F.magnitude index :=
    div_le_self (Nat.cast_nonneg _) (by exact_mod_cast positive)
  exact (isNearest_nearest wide _ positive).le_of_le (.magnitude F index) smaller

end BinaryFormat

namespace Binary

variable {F : BinaryFormat}

/-- The positions on the grid are those of finite numbers. -/
theorem isFinite_ofIndex_iff {negative : Bool} {index : Nat} :
    (ofIndex negative index : Binary F).isFinite = true ↔ index < F.count := by
  -- A position beyond the grid stands for no finite number.
  rcases Nat.lt_or_ge index F.count with within | beyond
  · rw [ofIndex_of_lt within]
    exact iff_of_true rfl within
  · rw [ofIndex_of_le beyond]
    exact iff_of_false Bool.false_ne_true (Nat.not_lt.mpr beyond)

/-- A quotient by a whole number is finite when the number is. -/
theorem isFinite_divide (wide : 2 ≤ F.precision) {divisor : Nat} (positive : 0 < divisor)
    (x : Binary F) : (x.divide divisor).isFinite = x.isFinite := by
  -- Nothing but a finite number has a position that could leave the grid.
  cases x with
  | nan => rfl
  | infinite negative => rfl
  | finite x =>
    -- The quotient is nearest to a position that is not greater.
    have position := BinaryFormat.nearest_magnitude_le wide x.index.val positive
    exact isFinite_ofIndex_iff.mpr (Nat.lt_of_le_of_lt position x.index.isLt)

/-- A product that is finite stays so for smaller magnitudes. -/
theorem isFinite_scale_of_le (wide : 2 ≤ F.precision) {factor small large : Finite F}
    (order : small.index ≤ large.index)
    (within : ((Binary.finite large).scale factor).isFinite = true) :
    ((Binary.finite small).scale factor).isFinite = true := by
  -- The smaller product is rounded to a position that is not beyond that of the greater one.
  have magnitudes : small.magnitude ≤ large.magnitude := F.strictMono_magnitude.monotone order
  have position := BinaryFormat.nearest_le_nearest wide (Nat.pow_pos (by decide) : 0 < 2 ^ F.depth)
    (Nat.mul_le_mul_right factor.magnitude magnitudes)
  exact isFinite_ofIndex_iff.mpr (Nat.lt_of_le_of_lt position (isFinite_ofIndex_iff.mp within))

end Binary

end Warrant
