import Warrant.Json.Scalar
import Warrant.Proofs.Number.Numeral
import Warrant.Text.Blank

/-! Decimal numerals in all their spellings, as people type them: what stands in one, and the number
that it is read as. -/

namespace Warrant

namespace Decimal

/-- The characters of a numeral that are no digits. -/
def marks : List Char :=
  ['.', 'e', 'E', '+', '-']

/-- A sign is taken off the front, and only a minus makes the number negative. -/
theorem splitSign_eq (text : List Char) : ∃ front, text = front ++ (splitSign text).2 ∧
    (∀ c ∈ front, c ∈ marks) ∧ ((splitSign text).1 = true ↔ text.head? = some '-') := by
  -- There are three cases: a minus, a plus, and no sign.
  unfold splitSign
  split
  · exact ⟨['-'], rfl, by simp [marks], by simp⟩
  · exact ⟨['+'], rfl, by simp [marks], by simp⟩
  · rename_i noMinus _
    refine ⟨[], rfl, nofun, iff_of_false Bool.false_ne_true fun minus => ?_⟩
    obtain ⟨rest, rfl⟩ := List.head?_eq_some_iff.mp minus
    exact noMinus rest rfl

/-- Two letters mark a power of ten. -/
theorem mem_marks_of_toLower {mark : Char} (letter : mark.toLower = 'e') : mark ∈ marks := by
  -- A letter is its own small letter, or a capital that is moved to it.
  delta Char.toLower at letter
  split at letter
  · -- A capital is 32 places in front of its small letter.
    have capital : mark = 'E' := by
      apply Char.ext
      have places := congrArg Char.val letter
      have shift : mark.val + ('a'.val - 'A'.val) = 'E'.val + ('a'.val - 'A'.val) := places
      exact (UInt32.add_left_inj _).mp shift
    rw [capital]
    decide
  · rw [letter]
    decide

/-- The characters of a power of ten. -/
theorem mem_of_readExponent? {text : List Char} {power : Int}
    (read : readExponent? text = some power) {c : Char} (member : c ∈ text) :
    c.isDigit = true ∨ c ∈ marks := by
  -- The mark comes first, then a sign, and then the digits.
  cases text with
  | nil => cases member
  | cons mark rest =>
    rw [readExponent?] at read
    obtain ⟨front, split, signs, _⟩ := splitSign_eq rest
    generalize splitSign rest = parts at read split
    obtain ⟨negative, digits⟩ := parts
    dsimp only at read split
    split at read
    · rename_i found
      obtain ⟨letter, _, all⟩ := found
      -- A character is the mark, the sign behind it or one of the digits.
      rcases List.mem_cons.mp member with rfl | behind
      · exact .inr (mem_marks_of_toLower letter)
      · rw [split] at behind
        rcases List.mem_append.mp behind with sign | digit
        · exact .inr (signs c sign)
        · exact .inl (List.all_eq_true.mp all c digit)
    · cases read

/-- A numeral is made of its sign, of digits with a point in any place, and of a power of ten if there
is one. -/
theorem of_read? {text : List Char} {d : Decimal} (read : read? text = some d) :
    d.negative = (splitSign text).1 ∧ ∃ digits rest power, (splitSign text).2 = digits ++ rest ∧
      digits ≠ [] ∧ (∀ c ∈ digits, c.isDigit = true ∨ c = '.') ∧
      readExponent? rest = some power := by
  -- The reader takes the sign, the digits around a point, and what is behind them as a power of
  -- ten.
  rw [read?] at read
  generalize splitSign text = parts at read ⊢
  obtain ⟨negative, body⟩ := parts
  dsimp only at read ⊢
  have whole := List.takeWhile_append_dropWhile (p := Char.isDigit) (l := body)
  have front : ∀ c ∈ body.takeWhile Char.isDigit, c.isDigit = true ∨ c = '.' :=
    fun c member => .inl (List.mem_takeWhile_imp member)
  -- A point may stand behind the first digits.
  split at read
  · rename_i tail point
    dsimp only at read
    split at read
    · cases read
    · -- Behind the point come further digits, and then the power.
      obtain ⟨power, raised, rfl⟩ := Option.map_eq_some_iff.mp read
      refine ⟨rfl, body.takeWhile Char.isDigit ++ '.' :: tail.takeWhile Char.isDigit, _, power, ?_,
        by simp, ?_, raised⟩
      · rw [List.append_assoc, List.cons_append, List.takeWhile_append_dropWhile, ← point, whole]
      · refine List.forall_mem_append.mpr ⟨front, List.forall_mem_cons.mpr ⟨.inr rfl, ?_⟩⟩
        exact fun c member => .inl (List.mem_takeWhile_imp member)
  · -- Without a point the power follows at once.
    dsimp only at read
    split at read
    · cases read
    · rename_i present
      obtain ⟨power, raised, rfl⟩ := Option.map_eq_some_iff.mp read
      exact ⟨rfl, _, _, power, whole.symm, fun none => present ⟨none, rfl⟩, front, raised⟩

/-- Digits and marks are all that stands in a numeral. -/
theorem mem_of_read? {text : List Char} {d : Decimal} (read : read? text = some d) {c : Char}
    (member : c ∈ text) : c.isDigit = true ∨ c ∈ marks := by
  -- Each part of the numeral has its own characters.
  obtain ⟨front, split, signs, _⟩ := splitSign_eq text
  obtain ⟨_, digits, rest, power, body, _, all, raised⟩ := of_read? read
  rw [split, body] at member
  rcases List.mem_append.mp member with sign | behind
  · exact .inr (signs c sign)
  · rcases List.mem_append.mp behind with digit | later
    · rcases all c digit with isDigit | rfl
      · exact .inl isDigit
      · exact .inr (by decide)
    · exact mem_of_readExponent? raised later

/-- No blank stands in a numeral. -/
theorem isBlank_of_read? {text : List Char} {d : Decimal} (read : read? text = some d) {c : Char}
    (member : c ∈ text) : Text.isBlank c = false := by
  -- None of the marks is blank, nor is any digit.
  have visible : marks.all (!Text.isBlank ·) = true := by rfl
  rcases mem_of_read? read member with digit | mark
  · exact Text.isBlank_of_isDigit digit
  · exact (Bool.not_eq_true' _).mp (List.all_eq_true.mp visible c mark)

/-- A numeral is negative when it starts with a minus. -/
theorem negative_iff_of_read? {text : List Char} {d : Decimal} (read : read? text = some d) :
    d.negative = true ↔ text.head? = some '-' := by
  obtain ⟨_, _, _, minus⟩ := splitSign_eq text
  rw [(of_read? read).1, minus]

end Decimal

/-- No word is read as a numeral. -/
theorem Decimal.lower_ne_of_read? {text : List Char} {d : Decimal} (read : read? text = some d)
    {letter : Char} {word : List Char} (isLetter : letter.isDigit = false) (noPoint : letter ≠ '.') :
    Text.lower (splitSign text).2 ≠ letter :: word := by
  -- The first character behind the sign is a digit or the point, and the word starts with neither.
  obtain ⟨_, digits, rest, _, body, present, all, _⟩ := of_read? read
  rw [body]
  cases digits with
  | nil => exact absurd rfl present
  | cons first others =>
    rcases all first List.mem_cons_self with digit | rfl
    · exact StartsWithDigit.lower_ne ⟨first, others ++ rest, rfl, digit⟩ isLetter
    · intro same
      exact noPoint (List.cons.inj same).1.symm

/-- A numeral is read as the number that is nearest to it. -/
theorem Binary.read?_of_read? {F : BinaryFormat} {text : List Char} {d : Decimal}
    (read : Decimal.read? text = some d) : Binary.read? F text = some (d.toBinary F) := by
  -- The words that are tried first are none of what a numeral can be.
  have noWord : ∀ letter word, letter.isDigit = false → letter ≠ '.' →
      String.ofList (Text.lower (Decimal.splitSign text).2) ≠ String.ofList (letter :: word) :=
    fun letter word isLetter noPoint same =>
      Decimal.lower_ne_of_read? read isLetter noPoint (String.ofList_injective same)
  have noInf : String.ofList (Text.lower (Decimal.splitSign text).2) ≠ "inf" :=
    noWord 'i' ['n', 'f'] rfl (by decide)
  have noInfinity : String.ofList (Text.lower (Decimal.splitSign text).2) ≠ "infinity" :=
    noWord 'i' ['n', 'f', 'i', 'n', 'i', 't', 'y'] rfl (by decide)
  have noNan : String.ofList (Text.lower (Decimal.splitSign text).2) ≠ "nan" :=
    noWord 'n' ['a', 'n'] rfl (by decide)
  rw [Binary.read?]
  simp only [noInf, noInfinity, noNan, or_self, if_false, read, Option.map_some]

namespace Numeral

/-- A whole number is read as the decimal of its digits, with the sign that stands in front. -/
theorem read?_of_whole? {numeral : List Char} {n : Int} (whole : whole? numeral = some n) :
    ∃ negative, Decimal.read? numeral = some ⟨negative, n.natAbs, 0⟩ ∧
      n = if negative then -(n.natAbs : Int) else n.natAbs := by
  -- There is no point and no power of ten, so that all characters behind the sign are digits.
  rw [whole?] at whole
  rw [Decimal.read?]
  generalize Decimal.splitSign numeral = parts at whole ⊢
  obtain ⟨negative, digits⟩ := parts
  dsimp only at whole ⊢
  split at whole
  · rename_i found
    obtain ⟨present, all⟩ := found
    obtain rfl := Option.some.inj whole
    -- The digits reach to the end, where nothing is left for a power.
    have stops : ∀ c, ([] : List Char).head? = some c → c.isDigit = false := by
      intro c none
      cases none
    have taken : digits.takeWhile Char.isDigit = digits ∧ digits.dropWhile Char.isDigit = [] := by
      have span := Decimal.span_digits (List.all_eq_true.mp all) stops
      rwa [List.append_nil] at span
    refine ⟨negative, ?_, ?_⟩
    · simp only [taken.1, taken.2, present, false_and, if_false, Decimal.readExponent?,
        Option.map_some, List.append_nil]
      cases negative <;> simp
    · cases negative <;> simp
  · cases whole

end Numeral

end Warrant
