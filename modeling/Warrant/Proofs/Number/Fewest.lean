import Warrant.Proofs.Number.Shortest

/-! The digits of a number are found on the coarsest decimal grid that has a point near enough to
it. A decimal with few digits is therefore what is written of the number nearest to it. -/

namespace Warrant

namespace Target

variable {t : Target}

/-- What lies between two points of the interval lies in it. -/
theorem holds_of_between {low point high : Nat} (left : t.holds low = true)
    (right : t.holds high = true) (above : low ≤ point) (below : point ≤ high) :
    t.holds point = true := by
  -- The bounds are either part of the interval or not, and in both cases it has no gaps.
  unfold holds at left right ⊢
  split at left
  · rename_i closed
    simp only [closed, if_true, Bool.and_eq_true, decide_eq_true_eq] at left right ⊢
    omega
  · rename_i opened
    simp only [opened, Bool.false_eq_true, if_false, Bool.and_eq_true,
      decide_eq_true_eq] at left right ⊢
    omega

/-- There is no candidate when neither neighbour of the value lies in the interval. -/
theorem candidate?_eq_none_iff {tie : TieRule} {step : Nat} : t.candidate? tie step = none ↔
    t.holds (t.value / step * step) = false ∧ t.holds ((t.value / step + 1) * step) = false := by
  -- The search takes one of the two neighbours as soon as one of them is held.
  rw [candidate?]
  cases t.holds (t.value / step * step) with
  | true =>
    cases t.holds ((t.value / step + 1) * step) with
    | true =>
      -- Both neighbours may be taken, and one of them is.
      dsimp only
      split
      · simp
      · split <;> simp
    | false => simp
  | false => cases t.holds ((t.value / step + 1) * step) <;> simp

/-- A step of which a multiple lies in the interval has a candidate. -/
theorem candidate?_ne_none {tie : TieRule} {step count : Nat} (inside : t.holds t.value = true)
    (positive : 0 < step) (held : t.holds (count * step) = true) :
    t.candidate? tie step ≠ none := by
  -- Without a candidate neither neighbour is held, and yet one of them lies between two points that
  -- are.
  intro none
  obtain ⟨low, high⟩ := candidate?_eq_none_iff.mp none
  have parts := Nat.div_add_mod' t.value step
  have small := Nat.mod_lt t.value positive
  -- The neighbour of the value on the side of the multiple is not further away than the multiple.
  rcases Nat.lt_or_ge (t.value / step) count with above | notAbove
  · have next : (t.value / step + 1) * step = t.value / step * step + step := Nat.succ_mul ..
    have reach : (t.value / step + 1) * step ≤ count * step := Nat.mul_le_mul_right step above
    rw [holds_of_between inside held (by rw [next]; omega) reach] at high
    cases high
  · have reach : count * step ≤ t.value / step * step := Nat.mul_le_mul_right step notAbove
    rw [holds_of_between held inside reach (by omega)] at low
    cases low

/-- A candidate is at most one step above the value. -/
theorem le_of_candidate? {tie : TieRule} {step digits : Nat}
    (taken : t.candidate? tie step = some digits) : digits ≤ t.value / step + 1 := by
  -- The two neighbours are at most one step above, whichever of them is taken.
  have chosen : tie.choose (t.value / step) ≤ t.value / step + 1 := by
    cases tie with
    | toEven =>
      rw [TieRule.choose]
      split
      · omega
      · omega
    | up => exact Nat.le_refl _
  -- The search looks at the floor, at the point above it, and at the rule when both are held.
  unfold candidate? at taken
  dsimp only at taken
  split at taken
  · split at taken
    · cases taken
      omega
    · split at taken
      · cases taken
        omega
      · cases taken
        exact chosen
  · cases taken
    omega
  · cases taken
    omega
  · cases taken

/-- What the search finds is at most one step above the value. -/
theorem search_le (t : Target) (tie : TieRule) (start : Nat) :
    (t.search tie start).1 ≤ t.value / 10 ^ (t.search tie start).2 + 1 := by
  -- By induction on the places, of which the first that has a candidate ends the search.
  induction start with
  | zero => simp [search]
  | succ place ih =>
    rw [search]
    cases taken : t.candidate? tie (Nat.pow 10 (place + 1)) with
    | some digits => exact le_of_candidate? taken
    | none => exact ih

/-- The search passes by no grid that has a point in the interval. -/
theorem le_search {tie : TieRule} {start place count : Nat} (inside : t.holds t.value = true)
    (held : t.holds (count * 10 ^ place) = true) (order : place ≤ start) :
    place ≤ (t.search tie start).2 := by
  -- By induction on the grids that are left, of which the coarsest comes first.
  induction start with
  | zero => exact order
  | succ last ih =>
    rw [search]
    cases taken : t.candidate? tie (Nat.pow 10 (last + 1)) with
    | some digits => exact order
    | none =>
      -- The grid of the point is none that was passed by.
      have finer : place ≠ last + 1 := by
        intro same
        rw [same] at held
        exact candidate?_ne_none inside (Nat.pow_pos (by decide)) held taken
      exact ih (by omega)

end Target

namespace BinaryFormat

variable {F : BinaryFormat}

/-- The magnitude before a position is nearer than the spacing of its run. -/
theorem le_magnitude_pred {run offset : Nat} (spread : run = 0 ∨ F.half ≤ offset)
    (within : offset ≤ 2 * F.half) (some : 0 < offset) :
    (offset - 1) * 2 ^ run ≤ F.magnitude (run * F.half + offset - 1) := by
  -- The position before is in the same run, or the last one of the run before.
  have place : run * F.half + offset - 1 = run * F.half + (offset - 1) := by omega
  by_cases start : run = 0 ∨ F.half ≤ offset - 1
  · rw [place, F.magnitude_add start (by omega)]
  · -- In front of the first position of a later run the spacing is half as large.
    obtain ⟨before, later⟩ : ∃ before, run = before + 1 := ⟨run - 1, by omega⟩
    have first : offset = F.half := by omega
    have last : run * F.half + offset - 1 = before * F.half + (2 * F.half - 1) := by
      rw [later, first, Nat.succ_mul]
      omega
    rw [last, F.magnitude_add (.inr (by omega)) (by omega), first, later, Nat.pow_succ]
    calc (F.half - 1) * (2 ^ before * 2) = (2 * (F.half - 1)) * 2 ^ before := by ring
      _ ≤ (2 * F.half - 1) * 2 ^ before := Nat.mul_le_mul_right _ (by omega)

end BinaryFormat

namespace Finite

variable {F : BinaryFormat}

/-- A point of the interval around a number is at most half a step of its run away from it. -/
theorem bounds_of_holds {x : Finite F} {run offset point : Nat}
    (place : x.index.val = run * F.half + offset) (spread : F.half ≤ offset)
    (within : offset < 2 * F.half) (held : x.target.holds point = true) :
    (2 * offset - 1) * (2 ^ run * 5 ^ F.depth) ≤ 2 * point ∧
      2 * point ≤ (2 * offset + 1) * (2 ^ run * 5 ^ F.depth) := by
  -- A point that is held rounds back to the number, so that it lies between the two midpoints.
  have positive := F.half_pos
  have nearest := isNearest_of_holds held
  rw [BinaryFormat.isNearest_div_iff (Nat.pow_pos (by decide)), place] at nearest
  obtain ⟨⟨low, high⟩, _⟩ := nearest
  have before : (offset - 1) * 2 ^ run ≤ F.magnitude (run * F.half + offset - 1) :=
    F.le_magnitude_pred (.inr spread) (by omega) (by omega)
  rw [Nat.add_assoc, F.magnitude_add (.inr spread) (by omega),
    F.magnitude_add (.inr (by omega)) (by omega)] at high
  rw [F.magnitude_add (.inr spread) (by omega)] at low
  constructor
  · -- The midpoint below is half a step of the run away, or less at the start of a run.
    calc (2 * offset - 1) * (2 ^ run * 5 ^ F.depth)
        = ((offset - 1) * 2 ^ run + offset * 2 ^ run) * 5 ^ F.depth := by
          have odd : 2 * offset - 1 = (offset - 1) + offset := by omega
          rw [odd]
          ring
      _ ≤ (F.magnitude (run * F.half + offset - 1) + offset * 2 ^ run) * 5 ^ F.depth :=
          Nat.mul_le_mul_right _ (Nat.add_le_add_right before _)
      _ ≤ 2 * point := low
  · -- The midpoint above is half a step away in any case.
    calc 2 * point ≤ (offset * 2 ^ run + (offset + 1) * 2 ^ run) * 5 ^ F.depth := high
      _ = (2 * offset + 1) * (2 ^ run * 5 ^ F.depth) := by ring

/-- Around a number behind the first run there is only one multiple of a step if one of them is a
small multiple. -/
theorem eq_of_holds {x : Finite F} (later : F.half ≤ x.index) {step few count : Nat}
    (small : few < F.half) (held : x.target.holds (few * step) = true)
    (other : x.target.holds (count * step) = true) : count = few := by
  -- The interval is as wide as a step of the run, and two multiples in it are one step or more
  -- apart.
  have positive := F.half_pos
  obtain ⟨run, offset, place, spread, within⟩ := F.exists_run x.index
  have reached : F.half ≤ offset := by
    rcases spread with first | reached
    · rw [place, first] at later
      omega
    · exact reached
  obtain ⟨low, high⟩ := bounds_of_holds place reached within held
  obtain ⟨otherLow, otherHigh⟩ := bounds_of_holds place reached within other
  have positiveUnit : 0 < 2 ^ run * 5 ^ F.depth := by positivity
  generalize 2 ^ run * 5 ^ F.depth = unit at *
  -- The two bounds are twice a unit apart.
  have width : (2 * offset + 1) * unit = (2 * offset - 1) * unit + 2 * unit := by
    rw [← Nat.add_mul]
    congr 1
    omega
  -- The interval is wider than a step only if the multiple is larger than half a run.
  have wider : unit < step := by
    by_contra fits
    have least : (2 * F.half - 1) * step ≤ (2 * offset - 1) * unit :=
      Nat.mul_le_mul (by omega) (by omega)
    have most : (2 * few + 1) * step ≤ (2 * F.half - 1) * step :=
      Nat.mul_le_mul_right step (by omega)
    have some : 1 * unit ≤ (2 * offset - 1) * unit := Nat.mul_le_mul_right unit (by omega)
    rw [Nat.add_mul, Nat.mul_assoc] at most
    have still : step = 0 := by omega
    rw [still, Nat.mul_zero] at low
    omega
  -- Two multiples that differ would not both fit.
  -- Otherwise the step would be no wider than a unit, and the multiple of it too small for the
  -- bounds.
  rcases Nat.lt_trichotomy count few with below | same | above
  · have apart : count * step + step ≤ few * step := by
      rw [← Nat.succ_mul]
      exact Nat.mul_le_mul_right step below
    omega
  · exact same
  · have apart : few * step + step ≤ count * step := by
      rw [← Nat.succ_mul]
      exact Nat.mul_le_mul_right step above
    omega

/-- A multiple of a power of ten is a multiple of each smaller one. -/
theorem mul_pow_of_le (count : Nat) {low high : Nat} (order : low ≤ high) :
    count * 10 ^ high = count * 10 ^ (high - low) * 10 ^ low := by
  rw [Nat.mul_assoc, ← Nat.pow_add, Nat.sub_add_cancel order]

/-- Around a number behind the first run the search finds the small multiple of a power of ten that
lies in the interval, if there is one. -/
theorem search_eq {x : Finite F} (tie : TieRule) (wide : 10 < F.half) (later : F.half ≤ x.index)
    {start few place : Nat} (reach : x.target.value < 10 ^ (start + 1)) (small : few < F.half)
    (held : x.target.holds (few * 10 ^ place) = true) :
    (x.target.search tie start).1 * 10 ^ (x.target.search tie start).2 = few * 10 ^ place := by
  -- What the search finds is held, and on a common grid the two are multiples of one step.
  have isFound := x.holds_found tie start
  have most := x.target.search_le tie start
  have passed : ∀ {count grid : Nat}, x.target.holds (count * 10 ^ grid) = true →
      grid ≤ start → grid ≤ (x.target.search tie start).2 :=
    fun held => Target.le_search x.holds_value held
  generalize x.target.search tie start = found at *
  rcases Nat.lt_or_ge found.2 place with finer | coarser
  · -- The search starts on a finer grid, where its first point is a small multiple already.
    have beyond : start < place := by
      by_contra within
      exact absurd (passed held (Nat.not_lt.mp within)) (Nat.not_le.mpr finer)
    have reached : start ≤ found.2 := by
      rw [mul_pow_of_le few beyond.le] at held
      exact passed held (Nat.le_refl start)
    have single : x.target.value / 10 ^ found.2 < 10 := by
      rw [Nat.div_lt_iff_lt_mul (Nat.pow_pos (by decide)), ← Nat.pow_succ']
      exact Nat.lt_of_lt_of_le reach (Nat.pow_le_pow_right (by decide) (by omega))
    rw [mul_pow_of_le few finer.le] at held ⊢
    rw [eq_of_holds later (by omega) isFound held]
  · -- The search passes a coarser grid first, of which the small multiple is one as well.
    rw [mul_pow_of_le found.1 coarser] at isFound ⊢
    rw [eq_of_holds later small held isFound]

/-- What is written of a number is the decimal of few digits that rounds to it, if there is one. -/
theorem size_shortest {x : Finite F} (tie : TieRule) (wide : 10 < F.half)
    (later : F.half ≤ x.index) {few : Nat} {power : Int} (small : few < F.half)
    (nearest : F.IsNearest x.index ((few : ℚ) * 10 ^ power * 2 ^ F.depth)) :
    (x.shortest tie).size = few * 10 ^ power := by
  -- What the search finds is held, and there is no other decimal of few digits that is.
  have positive := F.half_pos
  have tens : (10 : ℚ) ^ F.depth = 2 ^ F.depth * 5 ^ F.depth := by
    rw [← mul_pow]
    norm_num
  -- A finer power of ten makes the decimal smaller than the numbers behind the first run.
  have fine : 0 ≤ power + F.depth := by
    by_contra finer
    have step : (10 : ℚ) ^ power * 2 ^ F.depth ≤ 1 := by
      calc (10 : ℚ) ^ power * 2 ^ F.depth
          ≤ 10 ^ (-(F.depth : ℤ)) * 10 ^ F.depth :=
            mul_le_mul (zpow_le_zpow_right₀ (by norm_num) (by omega))
              (pow_le_pow_left₀ (by norm_num) (by norm_num) _) (by positivity) (by positivity)
        _ = 1 := by rw [zpow_neg, zpow_natCast, inv_mul_cancel₀ (by positivity)]
    have exact := BinaryFormat.IsNearest.magnitude F few
    rw [F.magnitude_of_le (by omega)] at exact
    have less : (few : ℚ) * 10 ^ power * 2 ^ F.depth ≤ few := by
      rw [mul_assoc]
      exact mul_le_of_le_one_right (Nat.cast_nonneg few) step
    have notBeyond := nearest.le_of_le exact less
    omega
  -- The decimal counts units of the interval, which is that of the search.
  obtain ⟨place, exponent⟩ : ∃ place : ℕ, power = place - F.depth :=
    ⟨(power + F.depth).toNat, by omega⟩
  have units : (few : ℚ) * 10 ^ power * 2 ^ F.depth =
      ((few * 10 ^ place : ℕ) : ℚ) / (5 ^ F.depth : ℕ) := by
    rw [exponent, zpow_sub₀ (by norm_num), zpow_natCast, zpow_natCast, tens]
    push_cast
    field_simp
  -- In units of the interval the decimal is a point that rounds to the number.
  rw [units] at nearest
  have reach := (Nat.length_toDigits_le_iff (b := 10) (n := x.target.value)
    (k := (Nat.toDigits 10 x.target.value).length - 1 + 1) (by decide) (by omega)).mp (by omega)
  have found := search_eq tie wide later reach small (holds_of_isNearest nearest)
  have power : (0 : ℚ) < 2 ^ F.depth := by positivity
  -- Both sides are taken in those units, in which the search has found the point.
  rw [shortest_eq_trimmed tie (by omega)]
  apply mul_right_cancel₀ power.ne'
  rw [Scientific.size_trimmed, found, units]

end Finite

end Warrant
