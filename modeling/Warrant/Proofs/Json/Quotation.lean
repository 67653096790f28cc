import Warrant.Json.Document
import Warrant.Json.Printer

/-! Strings as they are written in JSON texts are read back, so that no two strings are written the
same way. -/

namespace Warrant

/-- The digit of a small number has its value. -/
theorem Text.hexDigit?_digitChar {n : Nat} (small : n < 16) :
    Text.hexDigit? n.digitChar = some n := by
  -- There are sixteen digits.
  revert n
  decide

namespace Document

/-- A code below the surrogates joins to its character, whatever follows it. -/
theorem join?_code {unit : Nat} (small : unit < 0x20) (pieces : List Piece) :
    join? (.code unit :: pieces) = (join? pieces).map (Char.ofNat unit :: ·) := by
  -- The code opens no pair and closes none, so the next piece is not consulted.
  have notHigh : isHigh unit = false := by simp [isHigh]; omega
  have notLow : isLow unit = false := by simp [isLow]; omega
  match pieces with
  | [] => simp [join?, notHigh, notLow]
  | .char c :: rest => simp [join?, notHigh, notLow]
  | .code next :: rest => rw [join?]; simp [notHigh, notLow]

end Document

namespace Json

open Document (Piece readPieces? join? readString?)

/-- A visible character other than the quote and the backslash is written as it is. -/
theorem escape_of_visible {c : Char} (visible : 0x20 ≤ c.toNat) (notQuote : c ≠ '"')
    (notBackslash : c ≠ '\\') : escape c = [c] := by
  -- All other characters that are escaped are controls.
  have notControl {d : Char} (control : d.toNat < 0x20) : c ≠ d := by
    rintro rfl
    omega
  simp only [escape, notQuote, notBackslash, notControl (d := '\n') (by decide),
    notControl (d := '\r') (by decide), notControl (d := '\t') (by decide),
    if_neg (show ¬ c.toNat = 8 by omega), if_neg (show ¬ c.toNat = 12 by omega),
    if_neg (Nat.not_lt.2 visible), if_false]

/-- An escape is a short form, a code of four digits, or the character as it is. -/
theorem escape_cases (c : Char) :
    (∃ mark, escape c = ['\\', mark] ∧ mark ≠ 'u' ∧ Document.shortEscape? mark = some c) ∨
      (c.toNat < 0x20 ∧ escape c =
        ['\\', 'u', '0', '0', (c.toNat / 16).digitChar, (c.toNat % 16).digitChar]) ∨
      (0x20 ≤ c.toNat ∧ c ≠ '"' ∧ c ≠ '\\' ∧ escape c = [c]) := by
  -- Seven characters have a short form, and only the other controls are written by their code.
  have named {n : Nat} (same : c.toNat = n) : c = Char.ofNat n := by rw [← same, Char.ofNat_toNat]
  by_cases quote : c = '"'
  · exact .inl ⟨'"', by subst quote; decide⟩
  by_cases backslash : c = '\\'
  · exact .inl ⟨'\\', by subst backslash; decide⟩
  by_cases line : c = '\n'
  · exact .inl ⟨'n', by subst line; decide⟩
  by_cases carriage : c = '\r'
  · exact .inl ⟨'r', by subst carriage; decide⟩
  by_cases tab : c = '\t'
  · exact .inl ⟨'t', by subst tab; decide⟩
  by_cases backspace : c.toNat = 8
  · exact .inl ⟨'b', by rw [named backspace]; decide⟩
  by_cases feed : c.toNat = 12
  · exact .inl ⟨'f', by rw [named feed]; decide⟩
  -- What remains is told apart by the code alone.
  by_cases control : c.toNat < 0x20
  · refine .inr (.inl ⟨control, ?_⟩)
    simp only [escape, quote, backslash, line, carriage, tab, backspace, feed, control, if_false,
      if_true]
  · have visible : 0x20 ≤ c.toNat := Nat.not_lt.1 control
    exact .inr (.inr ⟨visible, quote, backslash, escape_of_visible visible quote backslash⟩)

/-- The piece that the escape of a character is read as: a code where it is written by its code. -/
def pieceOf (c : Char) : Piece :=
  if (escape c).length = 6 then .code c.toNat else .char c

/-- An escape is read as its piece. -/
theorem readPieces?_escape (c : Char) (rest : List Char) :
    readPieces? (escape c ++ rest) =
      (readPieces? rest).map fun (pieces, rest) => (pieceOf c :: pieces, rest) := by
  -- Each form of an escape has its own branch in the reader.
  rcases escape_cases c with ⟨mark, form, notCode, known⟩ | ⟨control, form⟩ |
    ⟨visible, notQuote, notBackslash, form⟩
  · -- A short escape is known by its mark.
    have piece : pieceOf c = .char c := by simp [pieceOf, form]
    rw [form, piece, List.cons_append, List.singleton_append, readPieces?, known]
    · cases readPieces? rest <;> rfl
    · simp [notCode]
  · -- A control character is spelt by its code, of which the first two digits are zero.
    have piece : pieceOf c = .code c.toNat := by simp [pieceOf, form]
    have zero : Text.hexDigit? '0' = some 0 := by decide
    have high := Text.hexDigit?_digitChar (n := c.toNat / 16) (by omega)
    have low := Text.hexDigit?_digitChar (n := c.toNat % 16) (by omega)
    have unit : Document.unit? '0' '0' (c.toNat / 16).digitChar (c.toNat % 16).digitChar =
        some c.toNat := by
      simp only [Document.unit?, zero, high, low, Option.bind_eq_bind, Option.bind_some,
        Option.pure_def, Option.some.injEq]
      omega
    rw [form, piece]
    simp only [List.cons_append, List.nil_append, readPieces?, unit]
    cases readPieces? rest <;> rfl
  · -- Any other character is taken for itself.
    have piece : pieceOf c = .char c := by simp [pieceOf, form]
    rw [form, piece, List.singleton_append, readPieces?]
    · rw [if_neg (by simp [notBackslash]; omega)]
      cases readPieces? rest <;> rfl
    · exact notQuote
    · exact fun _ _ _ _ _ backslash => absurd backslash notBackslash
    · exact fun _ _ backslash => absurd backslash notBackslash

/-- The pieces of escapes join to the characters. -/
theorem join?_map_pieceOf (chars : List Char) : join? (chars.map pieceOf) = some chars := by
  -- A code is that of a control character, which is far from the surrogates.
  induction chars with
  | nil => rfl
  | cons c rest ih =>
    rw [List.map_cons, pieceOf]
    split
    · rename_i long
      have control : c.toNat < 0x20 := by
        rcases escape_cases c with ⟨mark, form, _⟩ | ⟨control, _⟩ | ⟨_, _, _, form⟩
        · simp [form] at long
        · exact control
        · simp [form] at long
      rw [Document.join?_code control, ih, Option.map_some, Char.ofNat_toNat]
    · simp [join?, ih]

/-- A written string is read back from behind its opening quote, up to what follows it. -/
theorem readString?_writeText (text : String) (rest : List Char) :
    readString? (text.toList.flatMap escape ++ '"' :: rest) = some (some text, rest) := by
  -- The escapes are read one after the other, and the quote behind them ends the string.
  have pieces : ∀ chars : List Char, readPieces? (chars.flatMap escape ++ '"' :: rest) =
      some (chars.map pieceOf, rest) := by
    intro chars
    induction chars with
    | nil => simp [readPieces?]
    | cons c chars ih => simp [List.append_assoc, readPieces?_escape, ih]
  simp [readString?, pieces, join?_map_pieceOf]

/-- No two strings are written the same way. -/
theorem writeText_injective {a b : String} (same : writeText a = writeText b) : a = b := by
  -- What stands between the quotes is read back as either string.
  have left := readString?_writeText a []
  have inside : a.toList.flatMap escape ++ ['"'] = b.toList.flatMap escape ++ ['"'] :=
    (List.cons.inj same).2
  rw [inside, readString?_writeText] at left
  simpa using left.symm

end Json

end Warrant
