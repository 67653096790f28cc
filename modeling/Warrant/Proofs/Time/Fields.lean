import Mathlib.Algebra.Ring.Nat
import Warrant.Proofs.Json.ReadBack
import Warrant.Time.Rfc3339

/-! Numbers of a fixed width: they are read back, and their texts come in the order of the numbers.
-/

namespace Warrant

namespace Text

/-- Lists that go on after beginnings of one length are ordered by these first. -/
theorem append_lt_append_iff {α : Type} [LT α] {a b : List α} (same : a.length = b.length)
    (c d : List α) : a ++ c < b ++ d ↔ a < b ∨ a = b ∧ c < d := by
  -- By induction on the beginnings, which are used up together.
  induction a generalizing b with
  | nil =>
    obtain rfl := List.length_eq_zero_iff.mp same.symm
    simp
  | cons first rest ih =>
    cases b with
    | nil => cases same
    | cons other others =>
      simp only [List.length_cons, Nat.add_right_cancel_iff] at same
      simp only [List.cons_append, List.cons_lt_cons_iff, ih same, List.cons.injEq]
      constructor
      · rintro (before | ⟨rfl, before | ⟨rfl, behind⟩⟩)
        · exact .inl (.inl before)
        · exact .inl (.inr ⟨rfl, before⟩)
        · exact .inr ⟨⟨rfl, rfl⟩, behind⟩
      · rintro ((before | ⟨rfl, before⟩) | ⟨⟨rfl, rfl⟩, behind⟩)
        · exact .inl before
        · exact .inr ⟨rfl, .inl before⟩
        · exact .inr ⟨rfl, .inr ⟨rfl, behind⟩⟩

/-- The value of a digit is below ten. -/
theorem digit_value_lt {c : Char} (digit : c.isDigit = true) : c.toNat - '0'.toNat < 10 := by
  -- The digits are the codes from 48 to 57.
  simp only [Char.isDigit, Bool.and_eq_true, decide_eq_true_eq, ge_iff_le,
    UInt32.le_iff_toNat_le] at digit
  have high : c.toNat ≤ 57 := digit.2
  show c.toNat - 48 < 10
  omega

/-- Digits are ordered by their values. -/
theorem digit_lt_iff {c d : Char} (digitC : c.isDigit = true) (digitD : d.isDigit = true) :
    (c < d ↔ c.toNat - '0'.toNat < d.toNat - '0'.toNat) ∧
      (c = d ↔ c.toNat - '0'.toNat = d.toNat - '0'.toNat) := by
  -- Subtracting the code of nought keeps the order, as no digit lies below it.
  simp only [Char.isDigit, Bool.and_eq_true, decide_eq_true_eq, ge_iff_le,
    UInt32.le_iff_toNat_le] at digitC digitD
  have lowC : 48 ≤ c.toNat := digitC.1
  have lowD : 48 ≤ d.toNat := digitD.1
  have order : c < d ↔ c.toNat < d.toNat := Iff.rfl
  have equal : c = d ↔ c.toNat = d.toNat := Char.toNat_inj.symm
  rw [order, equal]
  show (_ ↔ c.toNat - 48 < d.toNat - 48) ∧ (_ ↔ c.toNat - 48 = d.toNat - 48)
  omega

/-- The first digit counts for as many tens as there are other digits. -/
theorem ofDigitChars_cons_zero (c : Char) (rest : List Char) :
    Nat.ofDigitChars 10 (c :: rest) 0 =
      10 ^ rest.length * (c.toNat - '0'.toNat) + Nat.ofDigitChars 10 rest 0 := by
  rw [Nat.ofDigitChars_cons, Nat.ofDigitChars_eq_ofDigitChars_zero, Nat.mul_zero, Nat.zero_add]

/-- Numbers with a rest below the base are ordered by their first part, and then by the rest. -/
theorem mul_add_lt_mul_add_iff {base x y a b : Nat} (smallA : a < base) (smallB : b < base) :
    base * x + a < base * y + b ↔ x < y ∨ x = y ∧ a < b := by
  -- Where the first parts differ, the base is more than the rests can make up for.
  rcases Nat.lt_trichotomy x y with less | rfl | more
  · have room := Nat.mul_le_mul_left base (Nat.succ_le_of_lt less)
    rw [Nat.mul_succ] at room
    omega
  · omega
  · have room := Nat.mul_le_mul_left base (Nat.succ_le_of_lt more)
    rw [Nat.mul_succ] at room
    omega

/-- The number of some digits has no more of them. -/
theorem ofDigitChars_lt {digits : List Char} (all : ∀ c ∈ digits, c.isDigit = true) :
    Nat.ofDigitChars 10 digits 0 < 10 ^ digits.length := by
  -- By induction on the digits, of which the first counts as many as the others can write.
  induction digits with
  | nil => simp
  | cons c rest ih =>
    obtain ⟨digit, others⟩ := List.forall_mem_cons.mp all
    have small := digit_value_lt digit
    have behind := ih others
    have room := Nat.mul_le_mul_left (10 ^ rest.length) (Nat.succ_le_of_lt small)
    rw [ofDigitChars_cons_zero, List.length_cons, Nat.pow_succ]
    rw [Nat.mul_succ] at room
    omega

/-- Texts of as many digits come in the order of their numbers. -/
theorem digits_lt_iff {a b : List Char} (same : a.length = b.length)
    (digitsA : ∀ c ∈ a, c.isDigit = true) (digitsB : ∀ c ∈ b, c.isDigit = true) :
    a < b ↔ Nat.ofDigitChars 10 a 0 < Nat.ofDigitChars 10 b 0 := by
  -- By induction on the digits, of which the first decides unless the two are equal.
  induction a generalizing b with
  | nil =>
    obtain rfl := List.length_eq_zero_iff.mp same.symm
    simp
  | cons c rest ih =>
    cases b with
    | nil => cases same
    | cons d others =>
      obtain ⟨digitC, restC⟩ := List.forall_mem_cons.mp digitsA
      obtain ⟨digitD, restD⟩ := List.forall_mem_cons.mp digitsB
      simp only [List.length_cons, Nat.add_right_cancel_iff] at same
      obtain ⟨order, equal⟩ := digit_lt_iff digitC digitD
      have boundA := ofDigitChars_lt restC
      have boundB := ofDigitChars_lt restD
      rw [List.cons_lt_cons_iff, ih same restC restD, order, equal, ofDigitChars_cons_zero,
        ofDigitChars_cons_zero]
      rw [same] at boundA ⊢
      exact (mul_add_lt_mul_add_iff boundA boundB).symm

end Text

namespace Stamp

/-- A field of fixed width has digits only. -/
theorem isDigit_of_mem_pad {width n : Nat} {c : Char} (member : c ∈ pad width n) :
    c.isDigit = true := by
  -- A field is padded with zeros, and what they are put before is digits.
  rcases List.mem_append.mp member with zero | digit
  · rw [List.eq_of_mem_replicate zero]
    rfl
  · exact Text.isDigit_of_mem_natural digit

/-- A field has its width when the number has no more digits. -/
theorem length_pad {width n : Nat} (present : 0 < width) (fits : n < 10 ^ width) :
    (pad width n).length = width := by
  -- The number has no more digits than the width, and zeros fill the rest.
  have digits := (Nat.length_toDigits_le_iff (b := 10) (by decide) present).mpr fits
  simp only [pad, Text.natural, List.length_append, List.length_replicate]
  omega

/-- The number of a field is the one that is written in it. -/
theorem ofDigitChars_pad (width n : Nat) : Nat.ofDigitChars 10 (pad width n) 0 = n := by
  rw [pad, Nat.ofDigitChars_append, Nat.ofDigitChars_replicate_zero, Nat.mul_zero]
  exact Nat.ofDigitChars_toDigits (by decide) (by decide)

/-- A field is read back, whatever follows it. -/
theorem readNumber?_pad {width n : Nat} (present : 0 < width) (fits : n < 10 ^ width)
    (rest : List Char) : readNumber? width width (pad width n ++ rest) = some (n, rest) := by
  -- The reader takes as many characters as the field is wide, and all of them are digits.
  have length := length_pad present fits
  have digits : ((pad width n ++ rest).take width).takeWhile Char.isDigit = pad width n := by
    rw [List.take_left' length, List.takeWhile_eq_self_iff]
    exact fun c member => isDigit_of_mem_pad member
  simp only [readNumber?, digits, length, Nat.lt_irrefl, if_false, ofDigitChars_pad,
    List.drop_left' length]

/-- Texts that go on after a field are ordered by its number first. -/
theorem pad_append_lt_iff {width m n : Nat} (present : 0 < width) (fitsM : m < 10 ^ width)
    (fitsN : n < 10 ^ width) (c d : List Char) :
    pad width m ++ c < pad width n ++ d ↔ m < n ∨ m = n ∧ c < d := by
  -- Fields of one width are as long as each other, so that the fields decide first.
  have same : (pad width m).length = (pad width n).length := by
    rw [length_pad present fitsM, length_pad present fitsN]
  -- Equal fields have equal numbers.
  have equal : pad width m = pad width n ↔ m = n := by
    refine ⟨fun fields => ?_, congrArg (pad width)⟩
    rw [← ofDigitChars_pad width m, fields, ofDigitChars_pad]
  rw [Text.append_lt_append_iff same, equal, Text.digits_lt_iff same
    (fun _ => isDigit_of_mem_pad) (fun _ => isDigit_of_mem_pad), ofDigitChars_pad, ofDigitChars_pad]

end Stamp

end Warrant
