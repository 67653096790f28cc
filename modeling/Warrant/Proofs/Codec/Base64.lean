import Warrant.Codec.Base64
import Warrant.Text.Blank

/-! Bytes in base64 are read from one text only, the one that is written for them, and no blank
stands at the ends of it. -/

namespace Warrant

namespace Base64

/-- A character of the alphabet has its value, and is neither padding nor blank. -/
theorem value?_digit (value : Nat) (small : value < 64) :
    value? (digit value) = some value ∧ digit value ≠ '=' ∧ Text.isBlank (digit value) = false := by
  -- There are sixty-four characters.
  revert value
  decide

/-- A character with a value is the character of that value. -/
theorem digit_of_value? {c : Char} {value : Nat} (read : value? c = some value) :
    value < 64 ∧ digit value = c := by
  -- The alphabet is given by ranges of characters, and the value by the code.
  have code {low high : Char} (range : low ≤ c ∧ c ≤ high) :
      low.toNat ≤ c.toNat ∧ c.toNat ≤ high.toNat := range
  -- One case for each range of the alphabet, in which the code of the character gives its value.
  unfold value? at read
  split at read
  · -- The capitals stand for the first 26 values.
    rename_i range
    obtain ⟨low, high⟩ := code range
    change 65 ≤ c.toNat at low
    change c.toNat ≤ 90 at high
    cases read
    refine ⟨by omega, ?_⟩
    rw [digit, if_pos (by omega), Nat.sub_add_cancel low, Char.ofNat_toNat]
  split at read
  · -- The small letters stand for the next 26.
    rename_i range
    obtain ⟨low, high⟩ := code range
    change 97 ≤ c.toNat at low
    change c.toNat ≤ 122 at high
    cases read
    refine ⟨by omega, ?_⟩
    rw [digit, if_neg (by omega), if_pos (by omega), Nat.sub_add_cancel (by omega),
      Char.ofNat_toNat]
  split at read
  · -- The digits come last, and their values go on from there.
    rename_i range
    obtain ⟨low, high⟩ := code range
    change 48 ≤ c.toNat at low
    change c.toNat ≤ 57 at high
    cases read
    refine ⟨by omega, ?_⟩
    rw [digit, if_neg (by omega), if_neg (by omega), if_pos (by omega), Nat.add_sub_cancel,
      Char.ofNat_toNat]
  -- The two signs have values of their own, and no other character has any.
  split at read
  · rename_i plus
    cases read
    exact ⟨by decide, plus.symm⟩
  split at read
  · rename_i slash
    cases read
    exact ⟨by decide, slash.symm⟩
  · cases read

/-- Every character of a text is visible. -/
theorem visible_of_mem_write {bytes : List UInt8} {c : Char} (member : c ∈ write bytes) :
    Text.isBlank c = false := by
  -- Each group of bytes adds characters of the alphabet, and padding in the last group.
  have shown {value : Nat} (small : value < 64) : Text.isBlank (digit value) = false :=
    (value?_digit value small).2.2
  have padding : Text.isBlank '=' = false := by decide
  fun_induction write bytes with
  | case1 a b c' rest group ih =>
    -- The bytes are bounded, so that each of the four values has a digit.
    have boundA := a.toNat_lt
    have boundB := b.toNat_lt
    have boundC := c'.toNat_lt
    simp only [List.mem_cons] at member
    rcases member with rfl | rfl | rfl | rfl | later
    · exact shown (by omega)
    · exact shown (by omega)
    · exact shown (by omega)
    · exact shown (by omega)
    · exact ih later
  | case2 a b group =>
    have boundA := a.toNat_lt
    -- The last value is filled up with zeros, and one place is padded.
    have boundB := b.toNat_lt
    simp only [List.mem_cons, List.not_mem_nil, or_false] at member
    rcases member with rfl | rfl | rfl | rfl
    · exact shown (by omega)
    · exact shown (by omega)
    · exact shown (by omega)
    · exact padding
  | case3 a =>
    -- Two places are padded behind a single byte.
    have bound := a.toNat_lt
    simp only [List.mem_cons, List.not_mem_nil, or_false] at member
    rcases member with rfl | rfl | rfl | rfl
    · exact shown (by omega)
    · exact shown (by omega)
    · exact padding
    · exact padding
  | case4 => cases member

/-- Bytes are read back from their text. -/
theorem read?_write (bytes : List UInt8) : read? (write bytes) = some bytes := by
  -- By groups of three bytes: the values of four characters make up the group again, and the
  -- padding of a shorter last group tells how many bytes it has.
  fun_induction write bytes with
  | case1 a b c rest group ih =>
    have boundA := a.toNat_lt
    have boundB := b.toNat_lt
    have boundC := c.toNat_lt
    -- Each of the four characters stands for the value from which it was written.
    have first := value?_digit (group / 262144) (by omega)
    have second := value?_digit (group / 4096 % 64) (by omega)
    have third := value?_digit (group / 64 % 64) (by omega)
    have fourth := value?_digit (group % 64) (by omega)
    -- The values make up the group, and the group its bytes.
    have whole : ((group / 262144 * 64 + group / 4096 % 64) * 64 + group / 64 % 64) * 64 +
        group % 64 = group := by omega
    have bytes : group / 65536 = a.toNat ∧ group / 256 % 256 = b.toNat ∧
        group % 256 = c.toNat := by omega
    -- No character of a full group is a padding, so that the reader takes the group for a full one.
    rw [read?]
    · simp [first.1, second.1, third.1, fourth.1, whole, bytes, ih]
    · exact fun _ same => absurd same fourth.2.1
    · exact fun same => absurd same fourth.2.1
  | case2 a b group =>
    have boundA := a.toNat_lt
    have boundB := b.toNat_lt
    have first := value?_digit (group / 4096) (by omega)
    have second := value?_digit (group / 64 % 64) (by omega)
    have third := value?_digit (group % 64) (by omega)
    have whole : (group / 4096 * 64 + group / 64 % 64) * 64 + group % 64 = group := by omega
    have bytes : group % 4 = 0 ∧ group / 1024 = a.toNat ∧ group / 4 % 256 = b.toNat := by omega
    rw [read?]
    · simp [first.1, second.1, third.1, whole, bytes]
    · -- The third character is no padding, which tells two bytes from one.
      exact third.2.1
  | case3 a =>
    have bound := a.toNat_lt
    have first := value?_digit (a.toNat / 4) (by omega)
    have second := value?_digit (a.toNat % 4 * 16) (by omega)
    have whole : a.toNat / 4 * 64 + a.toNat % 4 * 16 = 16 * a.toNat := by omega
    rw [read?]
    simp only [first.1, second.1, Option.bind_eq_bind, Option.bind_some, whole, Nat.mul_mod_right,
      if_true, Nat.mul_div_cancel_left a.toNat (by decide : 0 < 16), UInt8.ofNat_toNat]
  | case4 => rfl

/-- A text that is read is the one that is written for its bytes. -/
theorem write_of_read? {text : List Char} {bytes : List UInt8} (read : read? text = some bytes) :
    write bytes = text := by
  -- By groups of four characters: the values of a group make up its bytes, and the bits that belong
  -- to no byte are zero, so that the same characters are written for them.
  have byte {n : Nat} (small : n < 256) : (UInt8.ofNat n).toNat = n :=
    UInt8.toNat_ofNat_of_lt' small
  fun_induction read? text generalizing bytes with
  | case1 =>
    cases read
    rfl
  | case2 a b =>
    simp only [Option.bind_eq_bind, Option.bind_eq_some_iff] at read
    obtain ⟨first, isFirst, second, isSecond, read⟩ := read
    obtain ⟨boundFirst, rfl⟩ := digit_of_value? isFirst
    obtain ⟨boundSecond, rfl⟩ := digit_of_value? isSecond
    -- The last four bits have to be zero, or else the text was refused.
    split at read
    · rename_i clear
      cases read
      -- The two values are found again in the byte, and the four zero bits behind it.
      have whole := byte (n := (first * 64 + second) / 16) (by omega)
      have high : (first * 64 + second) / 16 / 4 = first := by omega
      have low : (first * 64 + second) / 16 % 4 * 16 = second := by omega
      simp only [write, whole, high, low]
    · cases read
  | case3 a b c =>
    simp only [Option.bind_eq_bind, Option.bind_eq_some_iff] at read
    obtain ⟨first, isFirst, second, isSecond, third, isThird, read⟩ := read
    obtain ⟨boundFirst, rfl⟩ := digit_of_value? isFirst
    obtain ⟨boundSecond, rfl⟩ := digit_of_value? isSecond
    obtain ⟨boundThird, rfl⟩ := digit_of_value? isThird
    -- Here the last two bits have to be zero.
    split at read
    · rename_i clear
      cases read
      generalize same : (first * 64 + second) * 64 + third = group at clear
      have one := byte (n := group / 1024) (by omega)
      have two := byte (n := group / 4 % 256) (by omega)
      have whole : (group / 1024 * 256 + group / 4 % 256) * 4 = group := by omega
      have parts : group / 4096 = first ∧ group / 64 % 64 = second ∧ group % 64 = third := by omega
      simp only [write, one, two, whole, parts]
    · cases read
  | case4 a b c d rest notTwo notOne ih =>
    simp only [Option.bind_eq_bind, Option.bind_eq_some_iff, Option.pure_def,
      Option.some.injEq] at read
    obtain ⟨first, isFirst, second, isSecond, third, isThird, fourth, isFourth, others, behind,
      rfl⟩ := read
    obtain ⟨boundFirst, rfl⟩ := digit_of_value? isFirst
    obtain ⟨boundSecond, rfl⟩ := digit_of_value? isSecond
    obtain ⟨boundThird, rfl⟩ := digit_of_value? isThird
    obtain ⟨boundFourth, rfl⟩ := digit_of_value? isFourth
    -- The three bytes of the group are cut at other places than its four values.
    generalize same : ((first * 64 + second) * 64 + third) * 64 + fourth = group
    have one := byte (n := group / 65536) (by omega)
    have two := byte (n := group / 256 % 256) (by omega)
    have three := byte (n := group % 256) (by omega)
    have whole : (group / 65536 * 256 + group / 256 % 256) * 256 + group % 256 = group := by omega
    have parts : group / 262144 = first ∧ group / 4096 % 64 = second ∧
        group / 64 % 64 = third ∧ group % 64 = fourth := by omega
    simp only [write, one, two, three, whole, parts, ih behind]
  | case5 => cases read

/-- Every list of bytes is read from the one text that is written for it. -/
theorem read?_eq_some_iff {text : List Char} {bytes : List UInt8} :
    read? text = some bytes ↔ text = write bytes := by
  -- What is read is written back as it was, and what was written is read.
  constructor
  · intro read
    exact (write_of_read? read).symm
  · rintro rfl
    exact read?_write bytes

-- The text of one zero byte with a stray bit behind it.
example : read? ['A', 'B', '=', '='] = none := by decide

end Base64

end Warrant
