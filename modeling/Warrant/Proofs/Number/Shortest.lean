import Mathlib.Data.List.TakeWhile
import Warrant.Number.Shortest
import Warrant.Proofs.Number.Decimal

/-! The shortest digits of a number write a decimal to which the number is the nearest one. -/

namespace Warrant

namespace Scientific

/-- The number that digits with an exponent write. -/
def size (s : Scientific) : ℚ :=
  Nat.ofDigitChars 10 s.digits 0 * 10 ^ (s.exponent + 1 - s.digits.length)

/-- There are digits, and nothing else. -/
structure IsProper (s : Scientific) : Prop where
  ne_nil : s.digits ≠ []
  isDigit : ∀ c ∈ s.digits, c.isDigit = true

/-- The digits of a number without the zeros at their end, for units of a negative power of ten
times a step. -/
def trimmed (n place depth : Nat) : Scientific :=
  let text := Nat.toDigits 10 n
  ⟨(text.reverse.dropWhile (· = '0')).reverse, (text.length - 1 + place : Nat) - (depth : Int)⟩

/-- The zeros that are trimmed are all that is missing from the digits. -/
theorem exists_zeros_trimmed (n place depth : Nat) : ∃ zeros, Nat.toDigits 10 n =
    (trimmed n place depth).digits ++ List.replicate zeros '0' := by
  -- The zeros stand at the front once the digits are turned round, where a prefix of them is cut
  -- off.
  have split := List.takeWhile_append_dropWhile (p := (· = '0')) (l := (Nat.toDigits 10 n).reverse)
  refine ⟨((Nat.toDigits 10 n).reverse.takeWhile (· = '0')).length, ?_⟩
  -- What is taken away are zeros only, in whichever direction they are read.
  have zeros : ((Nat.toDigits 10 n).reverse.takeWhile (· = '0')).reverse =
      List.replicate ((Nat.toDigits 10 n).reverse.takeWhile (· = '0')).length '0' := by
    rw [List.eq_replicate_iff]
    refine ⟨List.length_reverse, fun c member => ?_⟩
    have zero := List.mem_takeWhile_imp (List.mem_reverse.mp member)
    exact of_decide_eq_true zero
  -- Turning both parts back puts the zeros behind the digits.
  have whole := congrArg List.reverse split
  rw [List.reverse_append, List.reverse_reverse, zeros] at whole
  exact whole.symm

/-- Trimmed digits write the number in the units of its step. -/
theorem size_trimmed (n place depth : Nat) :
    (trimmed n place depth).size * 2 ^ depth = ((n * 10 ^ place : ℕ) : ℚ) / (5 ^ depth : ℕ) := by
  -- The number is the trimmed digits followed by zeros, and each zero is a factor of ten.
  obtain ⟨zeros, text⟩ := exists_zeros_trimmed n place depth
  have value : n = 10 ^ zeros * Nat.ofDigitChars 10 (trimmed n place depth).digits 0 := by
    calc n = Nat.ofDigitChars 10 (Nat.toDigits 10 n) 0 := Nat.ofDigitChars_ten_toDigits.symm
      _ = 10 ^ zeros * Nat.ofDigitChars 10 (trimmed n place depth).digits 0 := by
        rw [text, Nat.ofDigitChars_append, Nat.ofDigitChars_replicate_zero]
  have long : 0 < (Nat.toDigits 10 n).length := Nat.length_toDigits_pos
  have lengths : (Nat.toDigits 10 n).length = (trimmed n place depth).digits.length + zeros := by
    rw [text, List.length_append, List.length_replicate]
  -- The trimmed zeros move into the exponent.
  have exponent : (trimmed n place depth).exponent + 1 - (trimmed n place depth).digits.length =
      ((zeros + place : ℕ) : ℤ) - (depth : ℤ) := by
    show (((Nat.toDigits 10 n).length - 1 + place : ℕ) : ℤ) - (depth : ℤ) + 1 - _ = _
    omega
  have tens : (10 : ℚ) ^ depth = 2 ^ depth * 5 ^ depth := by
    rw [← mul_pow]
    norm_num
  -- Both sides are now the same product of powers of two, five and ten.
  rw [size, exponent, zpow_sub₀ (by norm_num), zpow_natCast, zpow_natCast, tens]
  conv_rhs => rw [value]
  push_cast
  field_simp
  ring

/-- Trimming leaves digits when the number is not zero. -/
theorem isProper_trimmed {n : Nat} (place depth : Nat) (nonzero : n ≠ 0) :
    (trimmed n place depth).IsProper := by
  -- The digits that remain are among those of the number.
  obtain ⟨zeros, text⟩ := exists_zeros_trimmed n place depth
  refine ⟨fun none => nonzero ?_, fun c member => ?_⟩
  · -- Without any digit left, the number would be written in zeros alone.
    calc n = Nat.ofDigitChars 10 (Nat.toDigits 10 n) 0 := Nat.ofDigitChars_ten_toDigits.symm
      _ = 0 := by
        rw [text, none, List.nil_append, Nat.ofDigitChars_replicate_zero, Nat.mul_zero]
  · have inside : c ∈ Nat.toDigits 10 n := by
      rw [text]
      exact List.mem_append_left _ member
    exact Nat.isDigit_of_mem_toDigits (by decide) (by decide) inside

end Scientific

namespace Target

/-- A multiple that is taken lies in the interval. -/
theorem holds_of_candidate? {t : Target} {tie : TieRule} {step digits : Nat}
    (taken : t.candidate? tie step = some digits) : t.holds (digits * step) = true := by
  -- Only neighbours that lie in the interval are taken, and the rule for ties takes one of them.
  have chosen : ∀ below, tie.choose below = below ∨ tie.choose below = below + 1 := by
    intro below
    cases tie with
    | toEven =>
      rw [TieRule.choose]
      split
      · exact .inl rfl
      · exact .inr rfl
    | up => exact .inr rfl
  unfold candidate? at taken
  dsimp only at taken
  -- Which of the two neighbours lie in the interval decides what is taken.
  split at taken
  · rename_i low high
    split at taken
    · cases taken
      exact low
    · split at taken
      · cases taken
        exact high
      · cases taken
        rcases chosen (t.value / step) with same | next
        · rw [same]
          exact low
        · rw [next]
          exact high
  · rename_i low _
    cases taken
    exact low
  · rename_i _ high
    cases taken
    exact high
  · cases taken

/-- The search ends with a point of the interval, or with the value itself. -/
theorem holds_of_search (t : Target) (tie : TieRule) (place : Nat) :
    (t.search tie place).1 * 10 ^ (t.search tie place).2 = t.value ∨
      t.holds ((t.search tie place).1 * 10 ^ (t.search tie place).2) = true := by
  -- Each place is tried before the next shorter one, down to the value itself at place nought.
  induction place with
  | zero => exact .inl (Nat.mul_one t.value)
  | succ place ih =>
    rw [search]
    cases taken : t.candidate? tie (Nat.pow 10 (place + 1)) with
    | some digits => exact .inr (holds_of_candidate? taken)
    | none => exact ih

end Target

namespace Finite

variable {F : BinaryFormat}

/-- A point of the interval around a number rounds to it. -/
theorem isNearest_of_holds {x : Finite F} {point : Nat} (held : x.target.holds point = true) :
    F.IsNearest x.index ((point : ℚ) / (5 ^ F.depth : ℕ)) := by
  -- Both the rounding and the interval compare doubled magnitudes, so the bounds carry over.
  rw [BinaryFormat.isNearest_div_iff (Nat.pow_pos (by decide))]
  simp only [Target.holds, target, magnitude, Nat.pow_eq] at held
  -- The interval has its bounds exactly when the position is even.
  rcases Nat.mod_two_eq_zero_or_one x.index with even | odd
  · -- At an even position the bounds belong to the interval.
    simp only [even, decide_true, if_true, Bool.and_eq_true] at held
    have low := of_decide_eq_true held.1
    have high := of_decide_eq_true held.2
    exact ⟨⟨low, high⟩, fun odd => by omega⟩
  · -- At an odd one they do not, and strict bounds are bounds too.
    simp only [odd, one_ne_zero, decide_false, Bool.false_eq_true, if_false,
      Bool.and_eq_true] at held
    have low := of_decide_eq_true held.1
    have high := of_decide_eq_true held.2
    exact ⟨⟨low.le, high.le⟩, fun _ => ⟨low, high⟩⟩

/-- A point that rounds to a number lies in the interval around it. -/
theorem holds_of_isNearest {x : Finite F} {point : Nat}
    (nearest : F.IsNearest x.index ((point : ℚ) / (5 ^ F.depth : ℕ))) :
    x.target.holds point = true := by
  -- Read in the other direction, the two bounds of the rounding are those of the interval.
  rw [BinaryFormat.isNearest_div_iff (Nat.pow_pos (by decide))] at nearest
  obtain ⟨⟨low, high⟩, strict⟩ := nearest
  simp only [Target.holds, target, magnitude, Nat.pow_eq]
  rcases Nat.mod_two_eq_zero_or_one x.index with even | odd
  · simp only [even, decide_true, if_true, Bool.and_eq_true]
    exact ⟨decide_eq_true low, decide_eq_true high⟩
  · simp only [odd, one_ne_zero, decide_false, Bool.false_eq_true, if_false, Bool.and_eq_true]
    exact ⟨decide_eq_true (strict odd).1, decide_eq_true (strict odd).2⟩

/-- A number lies in the interval around it. -/
theorem holds_value (x : Finite F) : x.target.holds x.target.value = true := by
  -- A magnitude rounds to its own position.
  apply holds_of_isNearest
  have exact := BinaryFormat.IsNearest.magnitude F x.index
  simpa [target, magnitude] using exact

/-- What the search finds for a number lies in the interval around it. -/
theorem holds_found (x : Finite F) (tie : TieRule) (start : Nat) :
    x.target.holds ((x.target.search tie start).1 * 10 ^ (x.target.search tie start).2) = true := by
  -- The search gives the value, which lies in its own interval, or a point that was tested.
  rcases x.target.holds_of_search tie start with value | held
  · rw [value]
    exact x.holds_value
  · exact held

/-- The digits of a number that is not zero are those that the search finds, without the zeros at
their end. -/
theorem shortest_eq_trimmed {x : Finite F} (tie : TieRule) (nonzero : x.index.val ≠ 0) :
    let found := x.target.search tie ((Nat.toDigits 10 x.target.value).length - 1)
    x.shortest tie = .trimmed found.1 found.2 F.depth := by
  have present : x.isZero = false := by simpa [isZero] using nonzero
  simp only [shortest, present, Bool.false_eq_true, if_false]
  rfl

/-- The digits of a number that is not zero come of a point that rounds to it. -/
theorem shortest_of_ne_zero {x : Finite F} (tie : TieRule) (nonzero : x.index.val ≠ 0) :
    ∃ n place, x.shortest tie = .trimmed n place F.depth ∧
      F.IsNearest x.index (((n * 10 ^ place : ℕ) : ℚ) / (5 ^ F.depth : ℕ)) :=
  ⟨_, _, x.shortest_eq_trimmed tie nonzero, isNearest_of_holds (x.holds_found tie _)⟩

/-- The shortest digits write a decimal to which the number is nearest. -/
theorem isNearest_shortest (tie : TieRule) (x : Finite F) :
    F.IsNearest x.index ((x.shortest tie).size * 2 ^ F.depth) := by
  -- Zero is written in a way of its own, so it is kept apart.
  by_cases zero : x.index.val = 0
  · have digits : x.shortest tie = ⟨['0'], 0⟩ := by simp [shortest, isZero, zero]
    have exact := BinaryFormat.IsNearest.magnitude F 0
    rw [digits, zero]
    simpa [Scientific.size, Nat.ofDigitChars] using exact
  · -- Any other number is the trimmed point that the search found, to which it is nearest.
    obtain ⟨n, place, digits, nearest⟩ := shortest_of_ne_zero tie zero
    rw [digits, Scientific.size_trimmed]
    exact nearest

/-- The shortest digits of a number are digits, of which there is one at least. -/
theorem isProper_shortest (tie : TieRule) (x : Finite F) : (x.shortest tie).IsProper := by
  -- Zero is the one digit nought, and any other number the digits of a point that is not zero.
  by_cases zero : x.index.val = 0
  · have digits : x.shortest tie = ⟨['0'], 0⟩ := by simp [shortest, isZero, zero]
    rw [digits]
    exact ⟨List.cons_ne_nil _ _, List.forall_mem_singleton.mpr rfl⟩
  · obtain ⟨n, place, digits, nearest⟩ := shortest_of_ne_zero tie zero
    rw [digits]
    apply Scientific.isProper_trimmed
    -- Zero rounds to the first position only.
    rintro rfl
    have exact := BinaryFormat.IsNearest.magnitude F 0
    rw [Nat.zero_mul, Nat.cast_zero, zero_div] at nearest
    rw [F.magnitude_zero, Nat.cast_zero] at exact
    exact zero (nearest.unique exact)

end Finite

end Warrant
