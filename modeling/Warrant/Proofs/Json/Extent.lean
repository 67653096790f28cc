import Warrant.Proofs.Json.Indented

/-! How far a document reaches in a text: it takes characters from the front, and what follows it is
not looked at, except to see where a numeral ends. -/

namespace Warrant.Document

/-- The blanks in front of the next token. -/
theorem exists_blanks (text : List Char) :
    ∃ blanks, (∀ c ∈ blanks, isSpace c = true) ∧ text = blanks ++ skipSpaces text :=
  ⟨text.takeWhile isSpace, fun _ member => List.mem_takeWhile_imp member,
    List.takeWhile_append_dropWhile.symm⟩

/-- A numeral ends at blanks as it ends at what follows them. -/
theorem endsNumeral_append {blanks : List Char} (all : ∀ c ∈ blanks, isSpace c = true)
    {text : List Char} (ends : endsNumeral text = true) : endsNumeral (blanks ++ text) = true := by
  -- A blank is no part of a numeral, and without blanks nothing is in between.
  cases blanks with
  | nil => exact ends
  | cons c blanks =>
    have blank : isSpace c = true := all c List.mem_cons_self
    simp only [isSpace, Bool.or_eq_true, decide_eq_true_eq] at blank
    rcases blank with ((rfl | rfl) | rfl) | rfl <;> rfl

/-- A run of digits reaches up to what starts with no digit. -/
theorem readDigits?_extent {text digits rest : List Char}
    (read : readDigits? text = some (digits, rest)) :
    text = digits ++ rest ∧ digits ≠ [] ∧ ∀ other, noDigit other = true →
      readDigits? (digits ++ other) = some (digits, other) := by
  -- The digits are the longest run, and what was behind them is not looked at.
  rw [readDigits?] at read
  split at read
  · cases read
  · rename_i present
    simp only [Option.some.injEq, Prod.mk.injEq] at read
    obtain ⟨rfl, rfl⟩ := read
    refine ⟨List.takeWhile_append_dropWhile.symm, present, fun other stops => ?_⟩
    exact readDigits?_append _ present (fun _ member => List.mem_takeWhile_imp member) stops

/-- The whole part of a numeral reaches up to what starts with no digit. -/
theorem readWhole?_extent {text whole rest : List Char}
    (read : readWhole? text = some (whole, rest)) :
    text = whole ++ rest ∧ whole ≠ [] ∧ ∀ other, noDigit other = true →
      readWhole? (whole ++ other) = some (whole, other) := by
  -- A zero stands alone, and any other whole part is a run of digits.
  unfold readWhole? at read
  split at read
  · -- A zero is read alone, whatever follows it.
    cases read
    exact ⟨rfl, List.cons_ne_nil _ _, fun _ _ => rfl⟩
  · rename_i notZero
    obtain ⟨form, present, again⟩ := readDigits?_extent read
    refine ⟨form, present, fun other stops => ?_⟩
    rw [readWhole?, again other stops]
    intro tail zero
    cases whole with
    | nil => exact present rfl
    | cons first digits =>
      rw [List.cons_append, List.cons.injEq] at zero
      exact notZero (digits ++ rest) (by rw [form, zero.1]; rfl)

/-- The fraction of a numeral is empty, or starts with a point, and reaches up to what starts with
neither a digit nor a point. -/
theorem readFraction?_extent {text fraction rest : List Char}
    (read : readFraction? text = some (fraction, rest)) :
    text = fraction ++ rest ∧ (fraction = [] ∨ fraction.head? = some '.') ∧
      ∀ other, noDigit other = true → other.head? ≠ some '.' →
        readFraction? (fraction ++ other) = some (fraction, other) := by
  -- Without a point there is no fraction, and what follows must not bring one.
  unfold readFraction? at read
  split at read
  · obtain ⟨⟨digits, behind⟩, found, same⟩ := Option.map_eq_some_iff.mp read
    cases same
    obtain ⟨rfl, _, again⟩ := readDigits?_extent found
    refine ⟨rfl, .inr rfl, fun other stops _ => ?_⟩
    rw [List.cons_append, readFraction?, again other stops, Option.map_some]
  · cases read
    exact ⟨rfl, .inl rfl, fun other _ notPoint => readFraction?_of_head?_ne notPoint⟩

/-- The power of ten of a numeral is empty, or starts with its mark, and reaches up to what ends the
numeral. -/
theorem readPower?_extent {text power rest : List Char}
    (read : readPower? text = some (power, rest)) :
    text = power ++ rest ∧ (power = [] ∨ power.head? = some 'e' ∨ power.head? = some 'E') ∧
      ∀ other, endsNumeral other = true → readPower? (power ++ other) = some (power, other) := by
  -- Without the mark of a power nothing is taken, and what follows is left as it is.
  unfold readPower? at read
  split at read
  · cases read
    exact ⟨rfl, .inl rfl, fun other ends => readPower?_of_endsNumeral ends⟩
  · rename_i mark tail
    split at read
    · rename_i isMark
      have start : (mark :: tail).head? = some 'e' ∨ (mark :: tail).head? = some 'E' := by
        simpa using isMark
      -- A sign, if there is one, is read with the digits behind it.
      rw [Option.map_eq_some_iff] at read
      split at read
      all_goals
        obtain ⟨⟨digits, behind⟩, found, same⟩ := read
        cases same
        obtain ⟨form, present, again⟩ := readDigits?_extent found
      · -- Behind a plus the digits are read as they are.
        subst form
        refine ⟨rfl, .inr start, fun other ends => ?_⟩
        simp [readPower?, isMark, again other (noDigit_of_endsNumeral ends)]
      · -- And so they are behind a minus.
        subst form
        refine ⟨rfl, .inr start, fun other ends => ?_⟩
        simp [readPower?, isMark, again other (noDigit_of_endsNumeral ends)]
      · -- A power without a sign starts with a digit, which is none of the two signs.
        rename_i noPlus noMinus
        cases digits with
        | nil => exact absurd rfl present
        | cons first digits =>
          subst form
          refine ⟨rfl, .inr start, fun other ends => ?_⟩
          have notPlus : first ≠ '+' := fun same => noPlus _ (congrArg (· :: _) same)
          have notMinus : first ≠ '-' := fun same => noMinus _ (congrArg (· :: _) same)
          have digits := again other (noDigit_of_endsNumeral ends)
          rw [List.cons_append] at digits
          simp [readPower?, isMark, notPlus, notMinus, digits]
    · -- Any other character is left for what comes next, and the power is empty.
      cases read
      exact ⟨rfl, .inl rfl, fun other ends => readPower?_of_endsNumeral ends⟩

/-- A numeral behind its sign. -/
def readUnsigned? (text : List Char) : Option (List Char × List Char) := do
  let (whole, rest) ← readWhole? text
  let (fraction, rest) ← readFraction? rest
  let (power, rest) ← readPower? rest
  return (whole ++ fraction ++ power, rest)

/-- A minus is read with the numeral behind it. -/
theorem readNumeral?_minus (text : List Char) : readNumeral? ('-' :: text) =
    (readUnsigned? text).map fun (numeral, rest) => ('-' :: numeral, rest) := by
  -- The minus stays in front of what the parts make up.
  simp only [readNumeral?, readUnsigned?, Option.bind_eq_bind, Option.pure_def, Option.map_bind,
    Option.map_some, Function.comp_def, List.cons_append, List.nil_append]

/-- A numeral without a minus starts with its whole part. -/
theorem readNumeral?_of_head?_ne {text : List Char} (noMinus : text.head? ≠ some '-') :
    readNumeral? text = readUnsigned? text := by
  -- The sign is the only part that is looked for in front.
  rw [readNumeral?]
  · rfl
  · rintro rest rfl
    exact noMinus rfl

/-- A numeral behind its sign reaches up to what ends it. -/
theorem readUnsigned?_extent {text numeral rest : List Char}
    (read : readUnsigned? text = some (numeral, rest)) :
    text = numeral ++ rest ∧ numeral ≠ [] ∧ ∀ other, endsNumeral other = true →
      readUnsigned? (numeral ++ other) = some (numeral, other) := by
  -- Each part reaches up to the next one, whose first character is no part of it.
  simp only [readUnsigned?, Option.bind_eq_bind, Option.bind_eq_some_iff, Option.pure_def,
    Option.some.injEq, Prod.exists, Prod.mk.injEq] at read
  obtain ⟨whole, afterWhole, readWhole, fraction, afterFraction, readFraction, power, afterPower,
    readPower, rfl, rfl⟩ := read
  obtain ⟨rfl, present, wholeAgain⟩ := readWhole?_extent readWhole
  obtain ⟨rfl, point, fractionAgain⟩ := readFraction?_extent readFraction
  obtain ⟨rfl, mark, powerAgain⟩ := readPower?_extent readPower
  refine ⟨by simp, by simp [present], fun other ends => ?_⟩
  -- A power begins with its mark, and without one the numeral ends there.
  have noDigitPower : noDigit (power ++ other) = true ∧ (power ++ other).head? ≠ some '.' := by
    cases power with
    | nil => exact ⟨noDigit_of_endsNumeral ends, head?_ne_point_of_endsNumeral ends⟩
    | cons first digits =>
      have isMark : first = 'e' ∨ first = 'E' := by simpa using mark
      rcases isMark with rfl | rfl <;> exact ⟨rfl, by simp⟩
  -- A fraction begins with its point, and without one comes the power.
  have noDigitFraction : noDigit (fraction ++ (power ++ other)) = true := by
    cases fraction with
    | nil => exact noDigitPower.1
    | cons first digits =>
      have isPoint : first = '.' := by simpa using point
      subst isPoint
      rfl
  simp [readUnsigned?, wholeAgain _ noDigitFraction, fractionAgain _ noDigitPower.1 noDigitPower.2,
    powerAgain other ends]

/-- A numeral reaches up to what ends it. -/
theorem readNumeral?_extent {text numeral rest : List Char}
    (read : readNumeral? text = some (numeral, rest)) :
    text = numeral ++ rest ∧ ∀ other, endsNumeral other = true →
      readNumeral? (numeral ++ other) = some (numeral, other) := by
  -- The minus, if there is one, stays in front.
  by_cases minus : text.head? = some '-'
  · obtain ⟨tail, rfl⟩ := List.head?_eq_some_iff.mp minus
    rw [readNumeral?_minus, Option.map_eq_some_iff] at read
    obtain ⟨⟨unsigned, behind⟩, found, same⟩ := read
    cases same
    obtain ⟨rfl, _, again⟩ := readUnsigned?_extent found
    refine ⟨rfl, fun other ends => ?_⟩
    rw [List.cons_append, readNumeral?_minus, again other ends, Option.map_some]
  · rw [readNumeral?_of_head?_ne minus] at read
    obtain ⟨rfl, present, again⟩ := readUnsigned?_extent read
    refine ⟨rfl, fun other ends => ?_⟩
    rw [List.head?_append_of_ne_nil _ present] at minus
    rw [readNumeral?_of_head?_ne (by rwa [List.head?_append_of_ne_nil _ present]), again other ends]

/-- The pieces of a string reach up to its closing quote, whatever follows that. -/
theorem readPieces?_extent {text rest : List Char} {pieces : List Piece}
    (read : readPieces? text = some (pieces, rest)) :
    ∃ front, text = front ++ rest ∧
      ∀ other, readPieces? (front ++ other) = some (pieces, other) := by
  -- By the recursion of the reader, which takes an escape or a character at a time.
  fun_induction readPieces? text generalizing pieces with
  | case1 => cases read
  | case2 tail =>
    cases read
    exact ⟨['"'], rfl, fun _ => rfl⟩
  | case3 a b c d tail ih =>
    -- A code is read at the length of its four digits.
    simp only [Option.bind_eq_bind, Option.bind_eq_some_iff, Option.pure_def, Option.some.injEq,
      Prod.exists, Prod.mk.injEq] at read
    obtain ⟨unit, code, others, behind, found, rfl, rfl⟩ := read
    obtain ⟨front, rfl, again⟩ := ih found
    exact ⟨'\\' :: 'u' :: a :: b :: c :: d :: front, rfl, fun other => by
      simp [readPieces?, code, again]⟩
  | case4 c tail _ ih =>
    simp only [Option.bind_eq_bind, Option.bind_eq_some_iff, Option.pure_def, Option.some.injEq,
      Prod.exists, Prod.mk.injEq] at read
    obtain ⟨plain, known, others, behind, found, rfl, rfl⟩ := read
    obtain ⟨front, rfl, again⟩ := ih found
    -- The mark of a short escape is not that of a code.
    have notCode : c ≠ 'u' := by
      rintro rfl
      cases known
    refine ⟨'\\' :: c :: front, rfl, fun other => ?_⟩
    simp [readPieces?, notCode, known, again]
  | case5 => cases read
  -- Any other character stands for itself, as it is neither a quote nor a backslash.
  | case6 c tail notQuote _ _ visible ih =>
    simp only [Option.bind_eq_bind, Option.bind_eq_some_iff, Option.pure_def, Option.some.injEq,
      Prod.exists, Prod.mk.injEq] at read
    obtain ⟨others, behind, found, rfl, rfl⟩ := read
    obtain ⟨front, rfl, again⟩ := ih found
    have notBackslash : c ≠ '\\' := fun same => visible (.inr same)
    refine ⟨c :: front, rfl, fun other => ?_⟩
    rw [List.cons_append, readPieces?, if_neg visible, again]
    · rfl
    · exact notQuote
    · exact fun _ _ _ _ _ backslash => absurd backslash notBackslash
    · exact fun _ _ backslash => absurd backslash notBackslash

/-- A string reaches up to its closing quote, whatever follows that. -/
theorem readString?_extent {text rest : List Char} {string : Option String}
    (read : readString? text = some (string, rest)) :
    ∃ front, text = front ++ rest ∧
      ∀ other, readString? (front ++ other) = some (string, other) := by
  -- The pieces are joined in the same way when they are read again.
  obtain ⟨⟨pieces, behind⟩, found, same⟩ := Option.map_eq_some_iff.mp read
  cases same
  obtain ⟨front, rfl, again⟩ := readPieces?_extent found
  exact ⟨front, rfl, fun other => by rw [readString?, again, Option.map_some]⟩

/-- Items are one document, and either others behind a comma or the closing bracket. -/
theorem readItems?_succ_eq_some_iff {fuel : Nat} {text rest : List Char} {items : List Document} :
    readItems? (fuel + 1) text = some (items, rest) ↔
      ∃ item behind, readValue? fuel text = some (item, behind) ∧
        ((∃ tail others, skipSpaces behind = ',' :: tail ∧
            readItems? fuel tail = some (others, rest) ∧ items = item :: others) ∨
          (skipSpaces behind = ']' :: rest ∧ items = [item])) := by
  -- What stands behind the first item decides between the two cases.
  rw [readItems?, Option.bind_eq_bind, Option.bind_eq_some_iff, Prod.exists]
  refine exists₂_congr fun item behind => and_congr_right fun _ => ?_
  dsimp only
  constructor
  · intro read
    split at read
    · rename_i tail next
      obtain ⟨⟨others, last⟩, found, same⟩ := Option.map_eq_some_iff.mp read
      cases same
      exact .inl ⟨tail, others, next, found, rfl⟩
    · rename_i tail next
      cases read
      exact .inr ⟨next, rfl⟩
    · cases read
  · rintro (⟨tail, others, next, found, rfl⟩ | ⟨next, rfl⟩)
    · simp [next, found]
    · simp [next]

/-- Members are a string, a colon and a document, and either others behind a comma or the closing
brace. -/
theorem readMembers?_succ_eq_some_iff {fuel : Nat} {text rest : List Char}
    {members : List (Option String × Document)} :
    readMembers? (fuel + 1) text = some (members, rest) ↔
      ∃ quoted key afterKey tail value behind, skipSpaces text = '"' :: quoted ∧
        readString? quoted = some (key, afterKey) ∧ skipSpaces afterKey = ':' :: tail ∧
        readValue? fuel tail = some (value, behind) ∧
        ((∃ tail others, skipSpaces behind = ',' :: tail ∧
            readMembers? fuel tail = some (others, rest) ∧ members = (key, value) :: others) ∨
          (skipSpaces behind = '\x7d' :: rest ∧ members = [(key, value)])) := by
  -- The four tokens of a member come one after the other, and then the mark behind it decides.
  rw [readMembers?]
  constructor
  · -- Each token that is missing leaves the reader without a result.
    intro read
    split at read
    case h_2 => cases read
    rename_i quoted quote
    obtain ⟨⟨key, afterKey⟩, readKey, read⟩ := Option.bind_eq_some_iff.mp read
    dsimp only at read
    split at read
    case h_2 => cases read
    rename_i tail colon
    rw [Option.bind_eq_bind, Option.bind_some] at read
    obtain ⟨⟨value, behind⟩, readValue, read⟩ := Option.bind_eq_some_iff.mp read
    refine ⟨quoted, key, afterKey, tail, value, behind, quote, readKey, colon, readValue, ?_⟩
    dsimp only at read
    split at read
    · -- A comma leads on to further members, and a closing mark ends them.
      rename_i last comma
      obtain ⟨⟨others, ending⟩, found, same⟩ := Option.map_eq_some_iff.mp read
      cases same
      exact .inl ⟨last, others, comma, found, rfl⟩
    · rename_i last closing
      cases read
      exact .inr ⟨closing, rfl⟩
    · cases read
  · -- In the other direction every token is given, and the reader takes them in turn.
    rintro ⟨quoted, key, afterKey, tail, value, behind, quote, readKey, colon, readValue, ending⟩
    rcases ending with ⟨last, others, comma, found, rfl⟩ | ⟨closing, rfl⟩
    · simp [quote, readKey, colon, readValue, comma, found]
    · simp [quote, readKey, colon, readValue, closing]

/-- A document whose end is not marked in the text. -/
def isNumber : Document → Bool
  | .number _ => true
  | _ => false

/-- A string behind its quote is read as one. -/
theorem readValue?_string {fuel : Nat} {text rest : List Char} {string : Option String}
    (read : readString? text = some (string, rest)) :
    readValue? (fuel + 1) ('"' :: text) = some (.string string, rest) := by
  simp [readValue?, skipSpaces_cons (show isSpace '"' = false by decide), read]

/-- A bracket closed right away is a list without items. -/
theorem readValue?_emptyList {fuel : Nat} {text rest : List Char}
    (closing : skipSpaces text = ']' :: rest) :
    readValue? (fuel + 1) ('[' :: text) = some (.list [], rest) := by
  simp [readValue?, skipSpaces_cons (show isSpace '[' = false by decide), closing]

/-- A brace closed right away is a record without members. -/
theorem readValue?_emptyRecord {fuel : Nat} {text rest : List Char}
    (closing : skipSpaces text = '\x7d' :: rest) :
    readValue? (fuel + 1) ('\x7b' :: text) = some (.record [], rest) := by
  simp [readValue?, skipSpaces_cons (show isSpace '\x7b' = false by decide), closing]

/-- How a document is read from its first token on, one case for each branch of the reader. -/
inductive ReadsFrom (fuel : Nat) : List Char → Document → List Char → Prop where
  | null (rest : List Char) : ReadsFrom fuel ('n' :: 'u' :: 'l' :: 'l' :: rest) .null rest
  | yes (rest : List Char) : ReadsFrom fuel ('t' :: 'r' :: 'u' :: 'e' :: rest) (.bool true) rest
  | no (rest : List Char) :
    ReadsFrom fuel ('f' :: 'a' :: 'l' :: 's' :: 'e' :: rest) (.bool false) rest
  | string {tail rest : List Char} {text : Option String}
    (read : readString? tail = some (text, rest)) : ReadsFrom fuel ('"' :: tail) (.string text) rest
  | emptyList {tail rest : List Char} (closing : skipSpaces tail = ']' :: rest) :
    ReadsFrom fuel ('[' :: tail) (.list []) rest
  | list {tail rest : List Char} {items : List Document}
    (read : readItems? fuel tail = some (items, rest)) :
    ReadsFrom fuel ('[' :: tail) (.list items) rest
  | emptyRecord {tail rest : List Char} (closing : skipSpaces tail = '\x7d' :: rest) :
    ReadsFrom fuel ('\x7b' :: tail) (.record []) rest
  | record {tail rest : List Char} {members : List (Option String × Document)}
    (read : readMembers? fuel tail = some (members, rest)) :
    ReadsFrom fuel ('\x7b' :: tail) (.record members) rest
  | number {text rest numeral : List Char} (read : readNumeral? text = some (numeral, rest)) :
    ReadsFrom fuel text (.number numeral) rest

/-- Behind the blanks a document is read by one of the branches. -/
theorem readsFrom_of_readValue? {fuel : Nat} {text rest : List Char} {document : Document}
    (read : readValue? (fuel + 1) text = some (document, rest)) :
    ReadsFrom fuel (skipSpaces text) document rest := by
  -- The first characters select the branch, and a closing mark right behind a bracket another one.
  rw [readValue?] at read
  split at read
  -- The three constants are read by their first characters, and need nothing more.
  case h_1 token | h_2 token | h_3 token =>
    cases read
    rw [token]
    constructor
  case h_4 token =>
    obtain ⟨_, found, same⟩ := Option.map_eq_some_iff.mp read
    cases same
    rw [token]
    exact .string found
  -- A bracket is closed at once, or the items are read behind it.
  case h_5 token =>
    rw [token]
    split at read
    · rename_i closing
      cases read
      exact .emptyList closing
    · rw [readItems?_skipSpaces] at read
      obtain ⟨_, found, same⟩ := Option.map_eq_some_iff.mp read
      cases same
      exact .list found
  -- For members the same two cases arise.
  case h_6 token =>
    rw [token]
    split at read
    · rename_i closing
      cases read
      exact .emptyRecord closing
    · rw [readMembers?_skipSpaces] at read
      obtain ⟨_, found, same⟩ := Option.map_eq_some_iff.mp read
      cases same
      exact .record found
  -- Whatever starts in no other way is read as a numeral.
  case h_7 =>
    obtain ⟨_, found, same⟩ := Option.map_eq_some_iff.mp read
    cases same
    exact .number found

/-- A mark behind blanks is found again, whatever follows it. A numeral in front of the blanks ends
there if it ends at the mark. -/
theorem exists_front_of_mark {text rest : List Char} {mark : Char}
    (next : skipSpaces text = mark :: rest) :
    ∃ front, text = front ++ rest ∧ (∀ other, skipSpaces (front ++ other) = mark :: other) ∧
      (endsNumeral [mark] = true → ∀ other, endsNumeral (front ++ other) = true) := by
  -- The mark is where the blanks in front of it end.
  obtain ⟨blanks, all, whole⟩ := exists_blanks text
  -- What the blanks stop at is none itself.
  have visible : isSpace mark = false := by
    have first := List.head?_dropWhile_not isSpace text
    rw [← skipSpaces, next] at first
    simpa using first
  refine ⟨blanks ++ [mark], by rw [whole, next]; simp, fun other => ?_, fun ends other => ?_⟩
  · rw [List.append_assoc, List.singleton_append, skipSpaces_append all, skipSpaces_cons visible]
  · rw [List.append_assoc]
    exact endsNumeral_append all ends

mutual

/-- A document reaches up to its last character. With at least as much fuel it is read again
whatever follows that, except that a number has to end there. -/
theorem readValue?_extent : ∀ (fuel : Nat) {text rest : List Char} {document : Document},
    readValue? fuel text = some (document, rest) → ∃ front, text = front ++ rest ∧
      ∀ more other, fuel ≤ more → (document.isNumber = true → endsNumeral other = true) →
        readValue? more (front ++ other) = some (document, other)
  -- By induction on the fuel, of which every level below has one less.
  -- Without fuel nothing is read.
  | 0, _, _, _, read => by cases read
  | fuel + 1, text, rest, document, read => by
    have branch := readsFrom_of_readValue? read
    obtain ⟨blanks, blank, whole⟩ := exists_blanks text
    generalize skipSpaces text = token at branch whole
    -- From the first token on, each kind of document takes its own characters.
    obtain ⟨front, rfl, again⟩ : ∃ front, token = front ++ rest ∧
        ∀ more other, fuel ≤ more → (document.isNumber = true → endsNumeral other = true) →
          readValue? (more + 1) (front ++ other) = some (document, other) := by
      cases branch with
      | null => exact ⟨['n', 'u', 'l', 'l'], rfl, fun _ _ _ _ => rfl⟩
      | yes => exact ⟨['t', 'r', 'u', 'e'], rfl, fun _ _ _ _ => rfl⟩
      | no => exact ⟨['f', 'a', 'l', 's', 'e'], rfl, fun _ _ _ _ => rfl⟩
      | string read =>
        obtain ⟨front, rfl, again⟩ := readString?_extent read
        exact ⟨'"' :: front, rfl, fun _ other _ _ => readValue?_string (again other)⟩
      | emptyList closing =>
        obtain ⟨mark, rfl, marked, _⟩ := exists_front_of_mark closing
        exact ⟨'[' :: mark, rfl, fun _ other _ _ => readValue?_emptyList (marked other)⟩
      | list read =>
        obtain ⟨front, rfl, again⟩ := readItems?_extent fuel read
        exact ⟨'[' :: front, rfl, fun more other enough _ =>
          readValue?_list (again more other enough)⟩
      | emptyRecord closing =>
        obtain ⟨mark, rfl, marked, _⟩ := exists_front_of_mark closing
        exact ⟨'\x7b' :: mark, rfl, fun _ other _ _ => readValue?_emptyRecord (marked other)⟩
      | record read =>
        obtain ⟨front, rfl, again⟩ := readMembers?_extent fuel read
        exact ⟨'\x7b' :: front, rfl, fun more other enough _ =>
          readValue?_record (again more other enough)⟩
      | number read =>
        obtain ⟨form, again⟩ := readNumeral?_extent read
        exact ⟨_, form, fun more other _ ends => readValue?_numeral more (again other (ends rfl))⟩
    -- The blanks in front are skipped when it is read again.
    refine ⟨blanks ++ front, by rw [whole, List.append_assoc], ?_⟩
    intro more other enough ends
    obtain ⟨more, rfl⟩ := Nat.exists_eq_add_of_le' (Nat.le_of_add_left_le enough)
    rw [List.append_assoc, readValue?_append blank]
    exact again more other (Nat.le_of_add_le_add_right enough) ends
termination_by structural fuel => fuel

/-- Items reach up to the bracket that closes them, whatever follows that. -/
theorem readItems?_extent : ∀ (fuel : Nat) {text rest : List Char} {items : List Document},
    readItems? fuel text = some (items, rest) → ∃ front, text = front ++ rest ∧
      ∀ more other, fuel ≤ more → readItems? more (front ++ other) = some (items, other)
  -- Without fuel nothing is read.
  | 0, _, _, _, read => by cases read
  | fuel + 1, text, rest, items, read => by
    obtain ⟨item, behind, first, ending⟩ := readItems?_succ_eq_some_iff.mp read
    obtain ⟨front, rfl, again⟩ := readValue?_extent fuel first
    -- The mark behind the item ends a numeral.
    rcases ending with ⟨tail, others, comma, found, rfl⟩ | ⟨closing, rfl⟩
    · -- Behind a comma further items are read, which take characters of their own.
      obtain ⟨mark, rfl, marked, ends⟩ := exists_front_of_mark comma
      obtain ⟨frontOthers, rfl, againOthers⟩ := readItems?_extent fuel found
      refine ⟨front ++ (mark ++ frontOthers), by simp, ?_⟩
      rintro (_ | more) other enough
      · omega
      · simp only [List.append_assoc]
        exact readItems?_succ_eq_some_iff.mpr ⟨item, _, again more _ (by omega) fun _ => ends rfl _,
          .inl ⟨_, others, marked _, againOthers more other (by omega), rfl⟩⟩
    · -- Behind the bracket nothing belongs to the items any more.
      obtain ⟨mark, rfl, marked, ends⟩ := exists_front_of_mark closing
      refine ⟨front ++ mark, by simp, ?_⟩
      rintro (_ | more) other enough
      · omega
      · simp only [List.append_assoc]
        exact readItems?_succ_eq_some_iff.mpr ⟨item, _, again more _ (by omega) fun _ => ends rfl _,
          .inr ⟨marked _, rfl⟩⟩
termination_by structural fuel => fuel

/-- Members reach up to the brace that closes them, whatever follows that. -/
theorem readMembers?_extent : ∀ (fuel : Nat) {text rest : List Char}
    {members : List (Option String × Document)},
    readMembers? fuel text = some (members, rest) → ∃ front, text = front ++ rest ∧
      ∀ more other, fuel ≤ more → readMembers? more (front ++ other) = some (members, other)
  -- Without fuel nothing is read.
  | 0, _, _, _, read => by cases read
  | fuel + 1, text, rest, members, read => by
    -- A member is a key between quotes, a colon and a value, each behind blanks.
    obtain ⟨quoted, key, afterKey, tail, value, behind, quote, readKey, colon, first, ending⟩ :=
      readMembers?_succ_eq_some_iff.mp read
    obtain ⟨opening, rfl, opened, _⟩ := exists_front_of_mark quote
    obtain ⟨name, rfl, named⟩ := readString?_extent readKey
    obtain ⟨between, rfl, parted, _⟩ := exists_front_of_mark colon
    obtain ⟨front, rfl, again⟩ := readValue?_extent fuel first
    -- The mark behind the value ends a numeral.
    rcases ending with ⟨last, others, comma, found, rfl⟩ | ⟨closing, rfl⟩
    · -- Behind a comma the other members take their own characters.
      obtain ⟨mark, rfl, marked, ends⟩ := exists_front_of_mark comma
      obtain ⟨frontOthers, rfl, againOthers⟩ := readMembers?_extent fuel found
      refine ⟨opening ++ (name ++ (between ++ (front ++ (mark ++ frontOthers)))), by simp, ?_⟩
      rintro (_ | more) other enough
      · omega
      · simp only [List.append_assoc]
        exact readMembers?_succ_eq_some_iff.mpr ⟨_, key, _, _, value, _, opened _, named _,
          parted _, again more _ (by omega) fun _ => ends rfl _,
          .inl ⟨_, others, marked _, againOthers more other (by omega), rfl⟩⟩
    · -- The closing mark ends the object with this member.
      obtain ⟨mark, rfl, marked, ends⟩ := exists_front_of_mark closing
      refine ⟨opening ++ (name ++ (between ++ (front ++ mark))), by simp, ?_⟩
      rintro (_ | more) other enough
      · omega
      · simp only [List.append_assoc]
        exact readMembers?_succ_eq_some_iff.mpr ⟨_, key, _, _, value, _, opened _, named _,
          parted _, again more _ (by omega) fun _ => ends rfl _, .inr ⟨marked _, rfl⟩⟩
termination_by structural fuel => fuel

end

/-- A text that starts with the bracket of a record or of a list. -/
def IsOpened (text : List Char) : Prop :=
  text.head? = some '\x7b' ∨ text.head? = some '['

/-- The bracket in front of such a text. -/
theorem IsOpened.eq_cons {text : List Char} (opened : IsOpened text) :
    ∃ bracket tail, text = bracket :: tail ∧ (bracket = '\x7b' ∨ bracket = '[') := by
  -- There are two such brackets.
  rcases opened with brace | bracket
  · obtain ⟨tail, rfl⟩ := List.head?_eq_some_iff.mp brace
    exact ⟨'\x7b', tail, rfl, .inl rfl⟩
  · obtain ⟨tail, rfl⟩ := List.head?_eq_some_iff.mp bracket
    exact ⟨'[', tail, rfl, .inr rfl⟩

/-- What starts with a bracket is no number. -/
theorem IsOpened.isNumber {fuel : Nat} {text rest : List Char} {document : Document}
    (opened : IsOpened text) (read : readValue? fuel text = some (document, rest)) :
    document.isNumber = false := by
  -- Behind a bracket only lists and records are read.
  cases fuel with
  | zero => cases read
  | succ fuel =>
    obtain ⟨bracket, tail, rfl, mark⟩ := opened.eq_cons
    have visible : isSpace bracket = false := by rcases mark with rfl | rfl <;> rfl
    have branch := readsFrom_of_readValue? read
    rw [skipSpaces_cons visible] at branch
    cases branch with
    | number read =>
      -- A numeral starts with a minus or with a digit.
      obtain ⟨first, _, form, start⟩ := readNumeral?_eq_cons (by rw [read]; exact nofun)
      rw [List.cons.injEq] at form
      rw [← form.1] at start
      rcases mark with rfl | rfl <;> exact absurd start (by decide)
    | _ => rfl

/-- What starts with a bracket is read up to the bracket that closes it, whatever follows. -/
theorem IsOpened.readFirst?_append {text rest : List Char} {document : Document}
    (opened : IsOpened text) (read : readFirst? text = some (document, rest))
    (following : List Char) :
    readFirst? (text ++ following) = some (document, rest ++ following) := by
  -- The longer text gives more fuel, and the document needs no end mark.
  have closed : document.isNumber = false := opened.isNumber read
  obtain ⟨front, rfl, again⟩ := readValue?_extent _ read
  rw [readFirst?, List.append_assoc]
  refine again _ _ ?_ (by simp [closed])
  simp only [List.length_append]
  omega

end Warrant.Document
