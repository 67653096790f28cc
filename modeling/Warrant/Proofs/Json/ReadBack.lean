import Mathlib.Data.List.DropRight
import Warrant.Proofs.Json.Quotation

/-! The compact text of a value without floats is read back as the document it writes, so that no
two such values have the same text. -/

namespace Warrant

namespace Text

/-- Every character of a number is a digit. -/
theorem isDigit_of_mem_natural {n : Nat} {c : Char} (member : c ∈ natural n) :
    c.isDigit = true :=
  Nat.isDigit_of_mem_toDigits (by decide) (by decide) member

/-- Only zero is written with a zero in front. -/
theorem natural_eq_zero_cons {n : Nat} {rest : List Char} (form : natural n = '0' :: rest) :
    n = 0 := by
  -- The first digit of a longer number is that of the number without its last digit.
  induction n using Nat.strongRecOn generalizing rest with
  | ind n ih =>
    rw [natural, Nat.toDigits_eq_if (by decide)] at form
    split at form
    · exact (by simpa using form : n = 0 ∧ rest = []).1
    · rename_i long
      cases shorter : natural (n / 10) with
      | nil => exact absurd shorter Nat.toDigits_ne_nil
      | cons first others =>
        rw [natural] at shorter
        rw [shorter, List.cons_append, List.cons.injEq] at form
        have zero := ih (n / 10) (by omega) (form.1 ▸ shorter)
        omega

/-- A number is written in one way only. -/
theorem natural_injective {m n : Nat} (same : natural m = natural n) : m = n := by
  -- Reading the digits gives the number back.
  have values := congrArg (Nat.ofDigitChars 10 · 0) same
  simpa [natural] using values

/-- A number starts with a digit. -/
theorem natural_eq_cons (n : Nat) :
    ∃ first rest, natural n = first :: rest ∧ first.isDigit = true := by
  -- There is always a digit, and all characters are digits.
  cases digits : natural n with
  | nil => exact absurd digits Nat.toDigits_ne_nil
  | cons first rest =>
    exact ⟨first, rest, rfl, isDigit_of_mem_natural (n := n) (by simp [digits])⟩

/-- No number starts with a minus. -/
theorem natural_append_ne_minus (n : Nat) (rest tail : List Char) :
    natural n ++ rest ≠ '-' :: tail := by
  -- The first character is a digit.
  intro same
  obtain ⟨first, others, form, digit⟩ := natural_eq_cons n
  rw [form, List.cons_append, List.cons.injEq] at same
  rw [same.1] at digit
  exact absurd digit (by decide)

/-- An integer is written in one way only. -/
theorem integer_injective {m n : Int} (same : integer m = integer n) : m = n := by
  -- A minus is no digit, so that the signs agree and then the magnitudes.
  have noMinus (k : Nat) (tail : List Char) : natural k ≠ '-' :: tail := by
    simpa using natural_append_ne_minus k [] tail
  unfold integer at same
  split at same <;> split at same
  · have magnitudes := natural_injective (List.cons.inj same).2
    omega
  · exact absurd same.symm (noMinus _ _)
  · exact absurd same (noMinus _ _)
  · have magnitudes := natural_injective same
    omega

end Text

namespace Document

/-- What follows a numeral in a text: nothing that would belong to it. -/
def endsNumeral : List Char → Bool
  | [] => true
  | c :: _ => !c.isDigit && c != '.' && c != 'e' && c != 'E'

/-- A text that starts with no digit. -/
def noDigit : List Char → Bool
  | [] => true
  | c :: _ => !c.isDigit

/-- What ends a numeral starts with no digit. -/
theorem noDigit_of_endsNumeral {text : List Char} (ends : endsNumeral text = true) :
    noDigit text = true := by
  -- The three further conditions are about points and marks of powers.
  cases text with
  | nil => rfl
  | cons c rest =>
    simp only [endsNumeral, Bool.and_eq_true] at ends
    exact ends.1.1.1

/-- A run of digits is read up to a text that starts with none. -/
theorem readDigits?_append (digits : List Char) {rest : List Char} (present : digits ≠ [])
    (all : ∀ c ∈ digits, c.isDigit = true) (stops : noDigit rest = true) :
    readDigits? (digits ++ rest) = some (digits, rest) := by
  -- The character behind the run is no digit.
  have stop : rest.takeWhile Char.isDigit = [] ∧ rest.dropWhile Char.isDigit = rest := by
    cases rest with
    | nil => simp
    | cons c rest =>
      have notDigit : c.isDigit = false := by simpa [noDigit] using stops
      simp [notDigit]
  rw [readDigits?, List.takeWhile_append_of_pos all, List.dropWhile_append_of_pos all, stop.1,
    stop.2, List.append_nil]
  cases digits with
  | nil => exact absurd rfl present
  | cons c digits => rfl

/-- A number is read up to what ends it. -/
theorem readWhole?_natural (n : Nat) {rest : List Char} (ends : endsNumeral rest = true) :
    readWhole? (Text.natural n ++ rest) = some (Text.natural n, rest) := by
  -- Zero is read as it is, and no other number starts with it.
  have run := readDigits?_append (Text.natural n) Nat.toDigits_ne_nil
    (fun c member => Text.isDigit_of_mem_natural member) (noDigit_of_endsNumeral ends)
  cases form : Text.natural n with
  | nil => exact absurd form Nat.toDigits_ne_nil
  | cons first others =>
    by_cases zero : first = '0'
    · subst zero
      have nothing := Text.natural_eq_zero_cons form
      subst nothing
      have alone : others = [] := by simpa [Text.natural] using form.symm
      simp [alone, readWhole?]
    · rw [List.cons_append, readWhole?]
      · rw [← List.cons_append, ← form, run]
      · exact fun _ same => zero (List.cons.inj same).1

/-- What ends a numeral starts with no point. -/
theorem head?_ne_point_of_endsNumeral {text : List Char} (ends : endsNumeral text = true) :
    text.head? ≠ some '.' := by
  -- A point would belong to the numeral.
  rintro point
  cases text with
  | nil => cases point
  | cons c rest =>
    cases point
    exact absurd ends (by simp [endsNumeral])

/-- No fraction is read where there is no point. -/
theorem readFraction?_of_head?_ne {text : List Char} (noPoint : text.head? ≠ some '.') :
    readFraction? text = some ([], text) := by
  -- The reader looks for a point and nothing else.
  rw [readFraction?]
  rintro rest rfl
  exact noPoint rfl

/-- No power of ten is read where the numeral ends. -/
theorem readPower?_of_endsNumeral {text : List Char} (ends : endsNumeral text = true) :
    readPower? text = some ([], text) := by
  -- A mark would belong to the numeral.
  cases text with
  | nil => rfl
  | cons c rest =>
    have notMark : ¬ (c = 'e' ∨ c = 'E') := by
      simp only [endsNumeral, Bool.and_eq_true, bne_iff_ne] at ends
      simp [ends.1.2, ends.2]
    simp [readPower?, notMark]

/-- An integer is read up to what ends it. -/
theorem readNumeral?_integer (n : Int) {rest : List Char} (ends : endsNumeral rest = true) :
    readNumeral? (Text.integer n ++ rest) = some (Text.integer n, rest) := by
  -- Behind the digits there is neither a point nor a power of ten.
  have noFraction := readFraction?_of_head?_ne (head?_ne_point_of_endsNumeral ends)
  have noPower := readPower?_of_endsNumeral ends
  have whole := readWhole?_natural n.natAbs ends
  unfold Text.integer
  split
  · simp [readNumeral?, whole, noFraction, noPower]
  · rw [List.nil_append, readNumeral?]
    · simp [whole, noFraction, noPower]
    · exact Text.natural_append_ne_minus n.natAbs rest

/-- Blanks are skipped up to a character that is none. -/
theorem skipSpaces_cons {c : Char} (visible : isSpace c = false) (rest : List Char) :
    skipSpaces (c :: rest) = c :: rest := by
  simp [skipSpaces, visible]

/-- A numeral starts with a minus or with a digit. -/
theorem readNumeral?_eq_cons {text : List Char} (read : readNumeral? text ≠ none) :
    ∃ first tail, text = first :: tail ∧ (first = '-' ∨ first.isDigit = true) := by
  -- A text without characters is read as no numeral.
  cases text with
  | nil => exact absurd rfl read
  | cons first tail =>
    refine ⟨first, tail, rfl, Decidable.byContradiction fun other => ?_⟩
    rw [not_or, Bool.not_eq_true] at other
    -- Without a minus the whole part comes first, which has at least one digit.
    have noWhole : readWhole? (first :: tail) = none := by
      rw [readWhole?]
      · simp [readDigits?, other.2]
      · rintro rest same
        rw [(List.cons.inj same).1] at other
        exact absurd other.2 (by decide)
    refine read ?_
    rw [readNumeral?]
    · simp [noWhole]
    · exact fun rest same => other.1 (List.cons.inj same).1

/-- What starts with a numeral is read as a number. -/
theorem readValue?_numeral (fuel : Nat) {text numeral rest : List Char}
    (read : readNumeral? text = some (numeral, rest)) :
    readValue? (fuel + 1) text = some (.number numeral, rest) := by
  -- A minus or a digit in front excludes every other kind of document.
  obtain ⟨first, tail, rfl, start⟩ := readNumeral?_eq_cons (by rw [read]; exact nofun)
  -- A minus or a digit is none of the marks that the other branches begin with.
  have other : ∀ c : Char, c ≠ '-' → c.isDigit = false → first ≠ c := by
    rintro c notMinus notDigit rfl
    rcases start with minus | digit
    · exact notMinus minus
    · rw [notDigit] at digit
      exact Bool.noConfusion digit
  have visible : isSpace first = false := by
    simp [isSpace, other]
  rw [readValue?, skipSpaces_cons visible]
  split
  case h_7 => simp [read]
  all_goals
    rename_i form
    exact absurd (List.cons.inj form).1 (other _ (by decide) (by decide))

/-- An integer is read as a number. -/
theorem readValue?_integer (fuel : Nat) (n : Int) {rest : List Char}
    (ends : endsNumeral rest = true) :
    readValue? (fuel + 1) (Text.integer n ++ rest) = some (.number (Text.integer n), rest) :=
  readValue?_numeral fuel (readNumeral?_integer n ends)

/-- Blanks in front of a text are skipped. -/
theorem skipSpaces_append {blanks : List Char} (all : ∀ c ∈ blanks, isSpace c = true)
    (text : List Char) : skipSpaces (blanks ++ text) = skipSpaces text :=
  List.dropWhile_append_of_pos all

/-- Blanks are skipped once and for all. -/
@[simp] theorem skipSpaces_skipSpaces (text : List Char) :
    skipSpaces (skipSpaces text) = skipSpaces text :=
  List.dropWhile_idempotent isSpace text

/-- A document is the same from the next token on. -/
theorem readValue?_skipSpaces (fuel : Nat) (text : List Char) :
    readValue? fuel (skipSpaces text) = readValue? fuel text := by
  -- The reader starts by skipping them itself.
  cases fuel with
  | zero => rfl
  | succ fuel => rw [readValue?, readValue?, skipSpaces_skipSpaces]

/-- Blanks in front of a document make no difference to it. -/
theorem readValue?_append {blanks : List Char} (all : ∀ c ∈ blanks, isSpace c = true) (fuel : Nat)
    (text : List Char) : readValue? fuel (blanks ++ text) = readValue? fuel text := by
  rw [← readValue?_skipSpaces, skipSpaces_append all, readValue?_skipSpaces]

/-- Items are the same from the next token on. -/
theorem readItems?_skipSpaces (fuel : Nat) (text : List Char) :
    readItems? fuel (skipSpaces text) = readItems? fuel text := by
  -- The reader of the first item skips them.
  cases fuel with
  | zero => rfl
  | succ fuel => rw [readItems?, readItems?, readValue?_skipSpaces]

/-- Members are the same from the next token on. -/
theorem readMembers?_skipSpaces (fuel : Nat) (text : List Char) :
    readMembers? fuel (skipSpaces text) = readMembers? fuel text := by
  -- The reader skips them in front of the first key.
  cases fuel with
  | zero => rfl
  | succ fuel => rw [readMembers?, readMembers?, skipSpaces_skipSpaces]

/-- No document starts with a closing bracket. -/
theorem readValue?_closing (fuel : Nat) {text tail : List Char}
    (next : skipSpaces text = ']' :: tail) : readValue? fuel text = none := by
  -- The bracket is none of the marks, and no numeral starts with it.
  cases fuel with
  | zero => rfl
  | succ fuel => rw [readValue?, next]; rfl

/-- No items start with a closing bracket. -/
theorem readItems?_closing (fuel : Nat) {text tail : List Char}
    (next : skipSpaces text = ']' :: tail) : readItems? fuel text = none := by
  cases fuel with
  | zero => rfl
  | succ fuel => rw [readItems?, readValue?_closing fuel next]; rfl

/-- No members start with a closing brace. -/
theorem readMembers?_closing (fuel : Nat) {text tail : List Char}
    (next : skipSpaces text = '\x7d' :: tail) : readMembers? fuel text = none := by
  cases fuel with
  | zero => rfl
  | succ fuel => rw [readMembers?, next]; rfl

/-- Items behind a bracket are read as a list. -/
theorem readValue?_list {fuel : Nat} {text rest : List Char} {items : List Document}
    (read : readItems? fuel text = some (items, rest)) :
    readValue? (fuel + 1) ('[' :: text) = some (.list items, rest) := by
  -- The bracket is read first, and then the items behind it.
  rw [readValue?]
  simp only [skipSpaces_cons (show isSpace '[' = false by decide)]
  -- Items do not start with the bracket that would close the list right away.
  split
  · rename_i closing
    rw [readItems?_closing fuel closing] at read
    cases read
  · rw [readItems?_skipSpaces, read, Option.map_some]

/-- Members behind a brace are read as a record. -/
theorem readValue?_record {fuel : Nat} {text rest : List Char}
    {members : List (Option String × Document)}
    (read : readMembers? fuel text = some (members, rest)) :
    readValue? (fuel + 1) ('\x7b' :: text) = some (.record members, rest) := by
  -- The brace is read first, and then the members behind it.
  rw [readValue?]
  simp only [skipSpaces_cons (show isSpace '\x7b' = false by decide)]
  -- Members do not start with the brace that would close the record right away.
  split
  · rename_i closing
    rw [readMembers?_closing fuel closing] at read
    cases read
  · rw [readMembers?_skipSpaces, read, Option.map_some]

end Document

namespace Json

mutual

/-- The document that the text of a value writes. -/
def document : Json → Document
  | .null => .null
  | .bool value => .bool value
  | .int value => .number (Text.integer value)
  | .float value => .number (value.write .json)
  | .str text => .string (some text)
  | .arr items => .list (itemDocuments items)
  | .obj members => .record (memberDocuments members)

/-- The documents of items. -/
def itemDocuments : List Json → List Document
  | [] => []
  | item :: rest => item.document :: itemDocuments rest

/-- The documents of members under their keys. -/
def memberDocuments : List (String × Json) → List (Option String × Document)
  | [] => []
  | (key, value) :: rest => (some key, value.document) :: memberDocuments rest

end

/-- No text is empty. -/
theorem write_ne_nil : ∀ {json : Json}, json.firstFloat? = none → json.write ≠ []
  -- A number has digits, and every other value starts with a mark of its own.
  | .null, _ | .bool true, _ | .bool false, _ => List.cons_ne_nil _ _
  | .int n, _ => by
    have digits : Text.natural n.natAbs ≠ [] := Nat.toDigits_ne_nil
    simp [write, writeLeaf, Text.integer, digits]
  | .str _, _ | .arr _, _ | .obj _, _ => List.cons_ne_nil _ _

open Document (readValue? readItems? readMembers? readString? endsNumeral skipSpaces isSpace)

mutual

/-- The text of a value without floats is read as its document, up to what follows it. -/
theorem readValue?_write : ∀ (json : Json) (fuel : Nat) (rest : List Char),
    json.firstFloat? = none → 2 * json.write.length ≤ fuel → endsNumeral rest = true →
    readValue? fuel (json.write ++ rest) = some (json.document, rest)
  -- By induction on the value: its first character selects the branch of the reader, and two units
  -- of fuel for every character last for all values inside.
  | .null, fuel + 1, rest, _, _, _ => by
    simp [write, writeLeaf, readValue?, skipSpaces, isSpace, document]
  | .bool true, fuel + 1, rest, _, _, _ => by
    simp [write, writeLeaf, readValue?, skipSpaces, isSpace, document]
  | .bool false, fuel + 1, rest, _, _, _ => by
    simp [write, writeLeaf, readValue?, skipSpaces, isSpace, document]
  | .int n, fuel + 1, rest, _, _, ends => by
    simp [write, writeLeaf, Document.readValue?_integer fuel n ends, document]
  | .str text, fuel + 1, rest, _, _, _ => by
    have read := readString?_writeText text rest
    simp [write, writeLeaf, writeText, readValue?, skipSpaces, isSpace, document, read]
  | .arr [], fuel + 1, rest, _, _, _ => by
    simp [write, writeItems, readValue?, skipSpaces, isSpace, document, itemDocuments]
  -- Behind the bracket the items are read with one unit of fuel less.
  | .arr (item :: items), fuel + 1, rest, noFloat, enough, _ => by
    simp only [firstFloat?] at noFloat
    simp only [write, List.length_cons, List.length_append] at enough
    have read := readItems?_write item items fuel rest noFloat (by omega)
    simp only [write, List.cons_append, List.append_assoc, List.nil_append]
    rw [Document.readValue?_list read, document]
  | .obj [], fuel + 1, rest, _, _, _ => by
    simp [write, writeMembers, readValue?, skipSpaces, isSpace, document, memberDocuments]
  | .obj ((key, value) :: members), fuel + 1, rest, noFloat, enough, _ => by
    simp only [firstFloat?] at noFloat
    simp only [write, List.length_cons, List.length_append] at enough
    have read := readMembers?_write key value members fuel rest noFloat (by omega)
    simp only [write, List.cons_append, List.append_assoc, List.nil_append]
    rw [Document.readValue?_record read, document]
  -- Every text has a character, for which some fuel is needed.
  | json, 0, rest, noFloat, enough, _ => by
    have present := List.length_pos_iff.mpr (write_ne_nil noFloat)
    omega

/-- The texts of items are read up to the closing bracket. -/
theorem readItems?_write : ∀ (item : Json) (items : List Json) (fuel : Nat) (rest : List Char),
    firstFloatItem? (item :: items) = none →
    2 * (writeItems (item :: items)).length + 1 ≤ fuel →
    readItems? fuel (writeItems (item :: items) ++ ']' :: rest) =
      some (itemDocuments (item :: items), rest)
  -- A comma or the closing bracket ends any numeral in front of it.
  | item, [], fuel + 1, rest, noFloat, enough => by
    have noFloat := firstFloatItem?_cons_eq_none_iff.1 noFloat
    simp only [writeItems] at enough
    have first : readValue? fuel (item.write ++ ']' :: rest) = some (item.document, ']' :: rest) :=
      readValue?_write item _ _ noFloat.1 (by omega) rfl
    simp [writeItems, readItems?, first, skipSpaces, isSpace, itemDocuments]
  | item, next :: items, fuel + 1, rest, noFloat, enough => by
    have noFloat := firstFloatItem?_cons_eq_none_iff.1 noFloat
    simp only [writeItems, List.length_append, List.length_cons] at enough
    have first : readValue? fuel
          (item.write ++ ',' :: (writeItems (next :: items) ++ ']' :: rest)) =
        some (item.document, ',' :: (writeItems (next :: items) ++ ']' :: rest)) :=
      readValue?_write item _ _ noFloat.1 (by omega) rfl
    have others := readItems?_write next items fuel rest
      noFloat.2 (by omega)
    simp [writeItems, readItems?, first, skipSpaces, isSpace, itemDocuments, others]
  | _, _, 0, _, _, enough => absurd enough (by omega)

/-- The texts of members are read up to the closing brace. -/
theorem readMembers?_write : ∀ (key : String) (value : Json) (members : List (String × Json))
    (fuel : Nat) (rest : List Char), firstFloatMember? ((key, value) :: members) = none →
    2 * (writeMembers ((key, value) :: members)).length + 1 ≤ fuel →
    readMembers? fuel (writeMembers ((key, value) :: members) ++ '\x7d' :: rest) =
      some (memberDocuments ((key, value) :: members), rest)
  -- The key is read as a string, and a comma or the closing brace ends its value.
  | key, value, [], fuel + 1, rest, noFloat, enough => by
    have noFloat := firstFloatMember?_cons_eq_none_iff.1 noFloat
    simp only [writeMembers, List.length_append, List.length_cons] at enough
    have name := readString?_writeText key (':' :: (value.write ++ '\x7d' :: rest))
    have first : readValue? fuel (value.write ++ '\x7d' :: rest) =
        some (value.document, '\x7d' :: rest) :=
      readValue?_write value _ _ noFloat.1 (by omega) rfl
    simp [writeMembers, writeText, readMembers?, first, name, skipSpaces, isSpace,
      memberDocuments]
  | key, value, (next, other) :: members, fuel + 1, rest, noFloat, enough => by
    have noFloat := firstFloatMember?_cons_eq_none_iff.1 noFloat
    simp only [writeMembers, List.length_append, List.length_cons] at enough
    have name := readString?_writeText key (':' :: (value.write ++
      ',' :: (writeMembers ((next, other) :: members) ++ '\x7d' :: rest)))
    have first : readValue? fuel (value.write ++
          ',' :: (writeMembers ((next, other) :: members) ++ '\x7d' :: rest)) =
        some (value.document, ',' :: (writeMembers ((next, other) :: members) ++ '\x7d' :: rest)) :=
      readValue?_write value _ _ noFloat.1 (by omega) rfl
    have others := readMembers?_write next other members fuel rest
      noFloat.2 (by omega)
    simp [writeMembers, writeText, readMembers?, first, name, skipSpaces, isSpace,
      memberDocuments, others]
  | _, _, _, 0, _, _, enough => absurd enough (by omega)

end

mutual

/-- Values without floats that write the same document are the same. -/
theorem document_injective : ∀ {a b : Json}, a.firstFloat? = none → b.firstFloat? = none →
    a.document = b.document → a = b
  -- Documents of different kinds differ, and within a kind the parts are compared.
  | .null, b, _, _, same => by cases b <;> simp [document] at same ⊢
  | .bool _, b, _, _, same => by cases b <;> simp [document] at same ⊢; exact same
  | .int _, b, _, right, same => by
    cases b <;> simp [document] at same ⊢
    · exact Text.integer_injective same
    · simp [firstFloat?] at right
  | .float _, _, left, _, _ => by simp [firstFloat?] at left
  | .str _, b, _, _, same => by cases b <;> simp [document] at same ⊢; exact same
  | .arr a, .arr b, left, right, same => by
    simp only [document, Document.list.injEq] at same
    rw [itemDocuments_injective left right same]
  | .obj a, .obj b, left, right, same => by
    simp only [document, Document.record.injEq] at same
    rw [memberDocuments_injective left right same]
  | .arr _, .null, _, _, same | .arr _, .bool _, _, _, same | .arr _, .int _, _, _, same
  | .arr _, .float _, _, _, same | .arr _, .str _, _, _, same | .arr _, .obj _, _, _, same
  | .obj _, .null, _, _, same | .obj _, .bool _, _, _, same | .obj _, .int _, _, _, same
  | .obj _, .float _, _, _, same | .obj _, .str _, _, _, same | .obj _, .arr _, _, _, same => by
    simp [document] at same

/-- Items without floats that write the same documents are the same. -/
theorem itemDocuments_injective : ∀ {a b : List Json}, firstFloatItem? a = none →
    firstFloatItem? b = none → itemDocuments a = itemDocuments b → a = b
  -- Documents are compared item by item, each pair without floats.
  | [], [], _, _, _ => rfl
  | [], _ :: _, _, _, same | _ :: _, [], _, _, same => by simp [itemDocuments] at same
  | a :: as, b :: bs, left, right, same => by
    have left := firstFloatItem?_cons_eq_none_iff.1 left
    have right := firstFloatItem?_cons_eq_none_iff.1 right
    simp only [itemDocuments, List.cons.injEq] at same
    rw [document_injective left.1 right.1 same.1, itemDocuments_injective left.2 right.2 same.2]

/-- Members without floats that write the same documents under the same keys are the same. -/
theorem memberDocuments_injective : ∀ {a b : List (String × Json)}, firstFloatMember? a = none →
    firstFloatMember? b = none → memberDocuments a = memberDocuments b → a = b
  -- Documents are compared member by member, with the keys in front of them.
  | [], [], _, _, _ => rfl
  | [], _ :: _, _, _, same | _ :: _, [], _, _, same => by simp [memberDocuments] at same
  | (k, a) :: as, (l, b) :: bs, left, right, same => by
    have left := firstFloatMember?_cons_eq_none_iff.1 left
    have right := firstFloatMember?_cons_eq_none_iff.1 right
    simp only [memberDocuments, List.cons.injEq, Prod.mk.injEq, Option.some.injEq] at same
    rw [same.1.1, document_injective left.1 right.1 same.1.2,
      memberDocuments_injective left.2 right.2 same.2]

end

/-- The compact text of a value without floats is read as its document. -/
theorem read?_write {json : Json} (noFloat : json.firstFloat? = none) :
    Document.read? json.write = some json.document := by
  -- Nothing follows the value, and the length of the text is fuel enough for all of it.
  have read := readValue?_write json (2 * json.write.length + 2) [] noFloat (by omega) rfl
  rw [List.append_nil] at read
  rw [Document.read?, Document.readFirst?, read]
  rfl

/-- Values without floats that have the same compact text are the same. -/
theorem write_injective {a b : Json} (left : a.firstFloat? = none) (right : b.firstFloat? = none)
    (same : a.write = b.write) : a = b := by
  -- The one text is read as the documents of both values.
  have readLeft := read?_write left
  rw [same, read?_write right, Option.some.injEq] at readLeft
  exact document_injective left right readLeft.symm

end Json

end Warrant
