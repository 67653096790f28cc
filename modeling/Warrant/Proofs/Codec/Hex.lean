import Warrant.Codec.Hex
import Warrant.Proofs.Json.Quotation
import Warrant.Text.Blank

/-! Hexadecimal texts stand for one list of bytes only, whatever the case of their letters. What is
read besides is a plus sign in front of a single digit. -/

namespace Warrant

namespace Text

/-- A digit from 0 to 9, or a letter from a to f of either case. -/
def isHexDigit (c : Char) : Bool :=
  ('0' ≤ c ∧ c ≤ '9') ∨ ('a' ≤ c ∧ c ≤ 'f') ∨ ('A' ≤ c ∧ c ≤ 'F')

/-- The characters with a value are the hexadecimal digits. -/
theorem isSome_hexDigit? (c : Char) : (hexDigit? c).isSome = isHexDigit c := by
  -- Both look at the same three ranges.
  unfold hexDigit? isHexDigit
  split
  · simp [*]
  split
  · simp [*]
  split
  · simp [*]
  · simp [*]

/-- Hexadecimal digits are ASCII. -/
theorem toNat_lt_of_isHexDigit {c : Char} (digit : isHexDigit c = true) : c.toNat < 128 := by
  -- All three ranges of digits end below 128.
  simp only [isHexDigit, decide_eq_true_eq] at digit
  rcases digit with ⟨_, high⟩ | ⟨_, high⟩ | ⟨_, high⟩
  all_goals exact Nat.lt_of_le_of_lt high (by decide)

/-- A hexadecimal digit is, in small letters, the digit of its value. It is neither blank nor a plus
sign. -/
theorem of_hexDigit? {c : Char} {value : Nat} (read : hexDigit? c = some value) :
    value < 16 ∧ value.digitChar = c.toLower ∧ isBlank c = false ∧ c ≠ '+' := by
  -- A digit is one of the first 128 characters, all of which can be tried.
  have digit : isHexDigit c = true := by rw [← isSome_hexDigit?, read]; rfl
  -- There are few enough characters that can be digits.
  have all : ∀ code < 128, ∀ value ∈ hexDigit? (Char.ofNat code), value < 16 ∧
      value.digitChar = (Char.ofNat code).toLower ∧ isBlank (Char.ofNat code) = false ∧
        Char.ofNat code ≠ '+' := by decide
  have own := all c.toNat (toNat_lt_of_isHexDigit digit)
  rw [Char.ofNat_toNat] at own
  exact own value read

end Text

namespace Hex

open Text (isHexDigit hexDigit?)

/-- A digit from 0 to 9 or from A to F. -/
def capitalDigit (value : Nat) : Char :=
  if value < 10 then .ofNat (48 + value) else .ofNat (55 + value)

/-- The digits of bytes are those of the first and those of the others. -/
theorem lower_cons (byte : UInt8) (rest : List UInt8) :
    lower (byte :: rest) =
      (byte.toNat / 16).digitChar :: (byte.toNat % 16).digitChar :: lower rest := by
  simp [lower]

/-- Capitals are written for each half of a byte. -/
theorem upper_eq_flatMap (bytes : List UInt8) :
    upper bytes = bytes.flatMap fun byte =>
      [capitalDigit (byte.toNat / 16), capitalDigit (byte.toNat % 16)] := by
  -- There are sixteen halves.
  have half : ∀ value < 16, value.digitChar.toUpper = capitalDigit value := by decide
  induction bytes with
  | nil => rfl
  | cons byte rest ih =>
    have small := byte.toNat_lt
    rw [upper] at ih ⊢
    simp only [lower_cons, List.map_cons, ih, List.flatMap_cons, List.cons_append, List.nil_append,
      half (byte.toNat / 16) (by omega), half (byte.toNat % 16) (by omega)]

/-- Capitals differ from small digits in their case only. -/
theorem lower_upper (bytes : List UInt8) : Text.lower (upper bytes) = lower bytes := by
  -- There are sixteen halves.
  have half : ∀ value < 16, value.digitChar.toUpper.toLower = value.digitChar := by decide
  induction bytes with
  | nil => rfl
  | cons byte rest ih =>
    have small := byte.toNat_lt
    rw [Text.lower, upper] at ih ⊢
    simp only [lower_cons, List.map_cons, ih, half (byte.toNat / 16) (by omega),
      half (byte.toNat % 16) (by omega)]

/-- Every byte takes two digits. -/
theorem length_upper (bytes : List UInt8) : (upper bytes).length = 2 * bytes.length := by
  -- Capitals are as many as the small digits, of which each byte adds two.
  induction bytes with
  | nil => rfl
  | cons byte rest ih =>
    rw [upper, List.length_map] at ih ⊢
    rw [lower_cons, List.length_cons, List.length_cons, ih, List.length_cons]
    omega

/-- The two digits of a byte are read as that byte. -/
theorem readPair?_digits (byte : UInt8) :
    readPair? (byte.toNat / 16).digitChar (byte.toNat % 16).digitChar = some byte := by
  -- No digit is a plus sign, and the halves add up to the byte.
  have small := byte.toNat_lt
  have high := Text.hexDigit?_digitChar (n := byte.toNat / 16) (by omega)
  have low := Text.hexDigit?_digitChar (n := byte.toNat % 16) (by omega)
  have noSign : (byte.toNat / 16).digitChar ≠ '+' := by
    intro same
    rw [same] at high
    exact absurd high (by simp [Text.hexDigit?])
  have whole : byte.toNat / 16 * 16 + byte.toNat % 16 = byte.toNat := by omega
  simp only [readPair?, high, low, noSign, if_false, Option.bind_eq_bind, Option.bind_some,
    Option.pure_def, whole, UInt8.ofNat_toNat]

/-- Small digits are read back as the bytes that they write. -/
theorem readPairs_lower (position : Nat) (bytes : List UInt8) :
    readPairs position (lower bytes) = .ok bytes := by
  -- Two characters at a time are read as one byte.
  induction bytes generalizing position with
  | nil => rfl
  | cons byte rest ih =>
    rw [lower_cons, readPairs, readPair?_digits, ih]
    rfl

/-- Bytes that are written alike up to the case of letters are the same. -/
theorem eq_of_lower_upper_eq {a b : List UInt8}
    (same : Text.lower (upper a) = Text.lower (upper b)) : a = b := by
  -- The small digits are read as both.
  rw [lower_upper, lower_upper] at same
  have readLeft := readPairs_lower 0 a
  rw [same, readPairs_lower, Except.ok.injEq] at readLeft
  exact readLeft.symm

/-- A text in pairs of two digits each, of which the first may be a plus sign instead. -/
inductive InPairs : List Char → Prop where
  | none : InPairs []
  | pair {first second : Char} {rest : List Char}
    (opening : first = '+' ∨ isHexDigit first = true) (closing : isHexDigit second = true)
    (others : InPairs rest) : InPairs (first :: second :: rest)

/-- The digits of a text in small letters, with a zero in the place of every plus sign. -/
def unsigned (text : List Char) : List Char :=
  Text.lower (text.map fun c => if c = '+' then '0' else c)

/-- Two characters that are read as a byte are a pair, and give the digits of the byte. -/
theorem of_readPair? {first second : Char} {byte : UInt8}
    (read : readPair? first second = some byte) :
    (first = '+' ∨ isHexDigit first = true) ∧ isHexDigit second = true ∧
      lower [byte] = unsigned [first, second] := by
  -- The second character is read first, and it has to be a digit.
  simp only [readPair?, Option.bind_eq_bind, Option.bind_eq_some_iff, Option.pure_def] at read
  obtain ⟨low, isLow, read⟩ := read
  obtain ⟨boundLow, digitLow, _, noSign⟩ := Text.of_hexDigit? isLow
  have closing : isHexDigit second = true := by rw [← Text.isSome_hexDigit?, isLow]; rfl
  split at read
  · -- The sign counts as a zero.
    rename_i sign
    cases read
    refine ⟨.inl sign, closing, ?_⟩
    have high : low % 256 / 16 = 0 := by omega
    have whole : low % 16 = low := by omega
    simp [lower, unsigned, Text.lower, high, whole, sign, noSign, digitLow]
  · -- Without a sign both characters are digits, and the byte is made of their values.
    rename_i sign
    rw [Option.bind_eq_some_iff] at read
    obtain ⟨high, isHigh, read⟩ := read
    obtain ⟨boundHigh, digitHigh, _⟩ := Text.of_hexDigit? isHigh
    cases read
    refine ⟨.inr (by rw [← Text.isSome_hexDigit?, isHigh]; rfl), closing, ?_⟩
    have first : (high * 16 + low) % 256 / 16 = high := by omega
    have second : (high * 16 + low) % 16 = low := by omega
    simp [lower, unsigned, Text.lower, first, second, sign, noSign, digitLow, digitHigh]

/-- Every pair is read as a byte. -/
theorem exists_readPair? {first second : Char} (opening : first = '+' ∨ isHexDigit first = true)
    (closing : isHexDigit second = true) : ∃ byte, readPair? first second = some byte := by
  -- Of a pair the second character is a digit, and the first one unless it is a plus sign.
  rw [← Text.isSome_hexDigit?, Option.isSome_iff_exists] at opening closing
  obtain ⟨low, isLow⟩ := closing
  by_cases sign : first = '+'
  · exact ⟨_, by simp [readPair?, isLow, sign]; rfl⟩
  · obtain ⟨high, isHigh⟩ := opening.resolve_left sign
    exact ⟨_, by simp [readPair?, isLow, sign, isHigh]; rfl⟩

/-- What is read is in pairs, and its bytes have its digits. -/
theorem of_readPairs {position : Nat} {text : List Char} {bytes : List UInt8}
    (read : readPairs position text = .ok bytes) :
    InPairs text ∧ lower bytes = unsigned text := by
  -- Two characters at a time are read as one byte.
  fun_induction readPairs position text generalizing bytes with
  | case1 position first second rest byte isByte ih =>
    -- The pair is read first, and an error behind it is the error of the whole.
    cases others : readPairs (position + 2) rest with
    | error cause =>
      rw [others] at read
      cases read
    | ok behind =>
      rw [others] at read
      cases read
      obtain ⟨pairs, digits⟩ := ih others
      obtain ⟨opening, closing, own⟩ := of_readPair? isByte
      refine ⟨.pair opening closing pairs, ?_⟩
      simp [lower, unsigned, Text.lower] at digits own ⊢
      simp [digits, own]
  | case2 => cases read
  | case3 => cases read
  | case4 =>
    cases read
    exact ⟨.none, rfl⟩

/-- Whatever is in pairs is read. -/
theorem InPairs.exists_readPairs {text : List Char} (pairs : InPairs text) (position : Nat) :
    ∃ bytes, readPairs position text = .ok bytes := by
  -- The pairs are read from left to right, so that the position stays quantified over.
  induction pairs generalizing position with
  | none => exact ⟨[], rfl⟩
  | pair opening closing _ ih =>
    obtain ⟨byte, isByte⟩ := exists_readPair? opening closing
    obtain ⟨bytes, behind⟩ := ih (position + 2)
    exact ⟨byte :: bytes, by rw [readPairs, isByte, behind]; rfl⟩

/-- The characters of pairs are digits and plus signs. -/
theorem InPairs.isHexDigit_or_eq {text : List Char} (pairs : InPairs text) :
    ∀ c ∈ text, isHexDigit c = true ∨ c = '+' := by
  induction pairs with
  | none => simp
  | pair opening closing _ ih => simpa [closing, opening.symm] using ih

/-- No blank stands in pairs. -/
theorem InPairs.isBlank_eq_false {text : List Char} (pairs : InPairs text) :
    ∀ c ∈ text, Text.isBlank c = false := by
  -- A character of a pair is a digit or a plus sign.
  intro c member
  rcases pairs.isHexDigit_or_eq c member with digit | rfl
  · rw [← Text.isSome_hexDigit?, Option.isSome_iff_exists] at digit
    obtain ⟨value, isValue⟩ := digit
    exact (Text.of_hexDigit? isValue).2.2.1
  · decide

/-- Pairs have an even number of characters. -/
theorem InPairs.even {text : List Char} (pairs : InPairs text) : text.length % 2 = 0 := by
  -- Each pair adds two characters.
  induction pairs with
  | none => rfl
  | pair _ _ _ ih =>
    rw [List.length_cons, List.length_cons]
    omega

/-- Digits are in pairs when their number is even. -/
theorem inPairs_of_isHexDigit (text : List Char) (even : text.length % 2 = 0)
    (digits : ∀ c ∈ text, isHexDigit c = true) : InPairs text := by
  -- Two characters at a time, as there is no single one left.
  match text with
  | [] => exact .none
  | [_] => simp at even
  | first :: second :: rest =>
    have others : rest.length % 2 = 0 := by
      rw [List.length_cons, List.length_cons] at even
      omega
    exact .pair (.inr (digits first (by simp))) (digits second (by simp))
      (inPairs_of_isHexDigit rest others fun c member => digits c (by simp [member]))

/-- The bytes of a text are those whose digits it has in pairs. -/
theorem read_eq_ok_iff {text : List Char} {bytes : List UInt8} :
    read text = .ok bytes ↔ InPairs text ∧ lower bytes = unsigned text := by
  -- The reader checks the shape of the text before it takes the pairs.
  unfold read
  constructor
  · -- What was accepted has passed the check, and its pairs are read one by one.
    intro accepted
    split at accepted
    · exact of_readPairs accepted
    · cases accepted
  · rintro ⟨pairs, digits⟩
    -- Pairs have the shape that is asked for.
    have ascii : text.all (fun c => c.toNat < 128) = true := by
      simp only [List.all_eq_true, decide_eq_true_eq]
      intro c member
      rcases pairs.isHexDigit_or_eq c member with digit | rfl
      · exact Text.toNat_lt_of_isHexDigit digit
      · decide
    rw [if_pos ⟨pairs.even, ascii⟩]
    obtain ⟨found, accepted⟩ := pairs.exists_readPairs 0
    -- Bytes with the same digits are the same.
    have same : lower bytes = lower found := by rw [digits, (of_readPairs accepted).2]
    have back := readPairs_lower 0 bytes
    rw [same, readPairs_lower, Except.ok.injEq] at back
    rw [accepted, back]

/-- Small digits are the pairs of the bytes that they write, without any sign. -/
theorem inPairs_lower (bytes : List UInt8) :
    InPairs (lower bytes) ∧ lower bytes = unsigned (lower bytes) :=
  of_readPairs (readPairs_lower 0 bytes)

/-- Every byte takes two small digits. -/
theorem length_lower (bytes : List UInt8) : (lower bytes).length = 2 * bytes.length := by
  rw [← length_upper, upper, List.length_map]

/-- A text has as many characters without its signs. -/
theorem length_unsigned (text : List Char) : (unsigned text).length = text.length := by
  simp [unsigned, Text.lower]

/-- Where small letters are all that the digits of a text differ in, it has no sign. -/
theorem unsigned_eq_lower_iff {text : List Char} :
    unsigned text = Text.lower text ↔ '+' ∉ text := by
  -- By induction on the text: a sign is the one character that is written otherwise.
  induction text with
  | nil => simp [unsigned, Text.lower]
  | cons c rest ih =>
    simp only [unsigned, Text.lower, List.map_cons, List.cons.injEq] at ih ⊢
    rw [ih, List.mem_cons, not_or]
    by_cases sign : c = '+'
    · simp [sign]
    · simp [sign, eq_comm]

end Hex

end Warrant
