import Warrant.Number.Layout
import Warrant.Proofs.Number.Shortest

/-! A number that is written is read back, in every layout: the numeral writes a decimal to which
the number is nearest. -/

namespace Warrant

namespace Decimal

/-- A text that starts with a digit. -/
def StartsWithDigit (text : List Char) : Prop :=
  ∃ first rest, text = first :: rest ∧ first.isDigit = true

/-- Digits start with a digit, whatever follows them. -/
theorem startsWithDigit_append {digits : List Char} (rest : List Char) (present : digits ≠ [])
    (all : ∀ c ∈ digits, c.isDigit = true) : StartsWithDigit (digits ++ rest) := by
  cases digits with
  | nil => exact absurd rfl present
  | cons first others => exact ⟨first, others ++ rest, rfl, all first List.mem_cons_self⟩

/-- A sign is a minus, or nothing. -/
def sign (negative : Bool) : List Char :=
  if negative then ['-'] else []

/-- A sign is taken off what starts with a digit. -/
theorem splitSign_sign (negative : Bool) {body : List Char} (digit : StartsWithDigit body) :
    splitSign (sign negative ++ body) = (negative, body) := by
  -- A minus is taken as it is, and without one the first character is looked at.
  cases negative with
  | true => rfl
  | false =>
    obtain ⟨first, rest, rfl, isDigit⟩ := digit
    -- A digit is no sign.
    have noMinus : first ≠ '-' := by
      rintro rfl
      exact absurd isDigit (by decide)
    have noPlus : first ≠ '+' := by
      rintro rfl
      exact absurd isDigit (by decide)
    show splitSign (first :: rest) = _
    rw [splitSign]
    · exact fun _ same => noMinus (List.cons.inj same).1
    · exact fun _ same => noPlus (List.cons.inj same).1

/-- A run of digits ends where something else starts. -/
theorem span_digits {digits rest : List Char} (all : ∀ c ∈ digits, c.isDigit = true)
    (stops : ∀ c, rest.head? = some c → c.isDigit = false) :
    (digits ++ rest).takeWhile Char.isDigit = digits ∧
      (digits ++ rest).dropWhile Char.isDigit = rest := by
  -- Of what comes behind the digits nothing is taken.
  have stop : rest.takeWhile Char.isDigit = [] ∧ rest.dropWhile Char.isDigit = rest := by
    cases rest with
    | nil => exact ⟨rfl, rfl⟩
    | cons c rest => simp [stops c rfl]
  rw [List.takeWhile_append_of_pos all, List.dropWhile_append_of_pos all, stop.1, stop.2,
    List.append_nil]
  exact ⟨rfl, rfl⟩

/-- What stands behind the digits of a numeral: nothing, or the mark of a power of ten. -/
def EndsDigits (power : List Char) : Prop :=
  ∀ c, power.head? = some c → c.isDigit = false ∧ c ≠ '.'

/-- Digits without a point are read up to the power of ten. -/
theorem read?_whole (negative : Bool) {whole power : List Char} {exponent : Int}
    (present : whole ≠ []) (all : ∀ c ∈ whole, c.isDigit = true) (ends : EndsDigits power)
    (raised : readExponent? power = some exponent) :
    read? (sign negative ++ (whole ++ power)) =
      some ⟨negative, Nat.ofDigitChars 10 whole 0, exponent⟩ := by
  -- The digits are all taken, up to the mark of the power.
  obtain ⟨taken, dropped⟩ := span_digits all fun c start => (ends c start).1
  rw [read?, splitSign_sign negative (startsWithDigit_append power present all)]
  simp only [taken, dropped]
  -- No point stands behind the digits.
  cases power with
  | nil => simp [present, raised]
  | cons mark rest =>
    have noPoint : mark ≠ '.' := (ends mark rfl).2
    simp [present, raised, noPoint]

/-- Digits around a point are read up to the power of ten. -/
theorem read?_fraction (negative : Bool) {whole fraction power : List Char} {exponent : Int}
    (present : whole ≠ []) (all : ∀ c ∈ whole ++ fraction, c.isDigit = true)
    (ends : EndsDigits power) (raised : readExponent? power = some exponent) :
    read? (sign negative ++ (whole ++ '.' :: (fraction ++ power))) =
      some ⟨negative, Nat.ofDigitChars 10 (whole ++ fraction) 0, exponent - fraction.length⟩ := by
  -- The point ends the first run of digits, and the power the second.
  obtain ⟨first, second⟩ := List.forall_mem_append.mp all
  have point : ∀ c, ('.' :: (fraction ++ power)).head? = some c → c.isDigit = false := by
    intro c start
    rw [List.head?_cons, Option.some.injEq] at start
    rw [← start]
    decide
  obtain ⟨taken, dropped⟩ := span_digits first point
  obtain ⟨behind, rest⟩ := span_digits second fun c start => (ends c start).1
  rw [read?, splitSign_sign negative (startsWithDigit_append _ present first)]
  simp only [taken, dropped, behind, rest]
  simp [present, raised]

/-- The text of a power of ten, if there is one: its mark, its sign if it has one, and its digits. -/
def powerText : Option (Bool × Int) → List Char
  | none => []
  | some (plusSign, exponent) =>
    'e' :: ((if exponent < 0 then ['-'] else if plusSign then ['+'] else []) ++
      Nat.toDigits 10 exponent.natAbs)

/-- A power of ten is read back, and where there is none it is that of one. -/
theorem readExponent?_powerText (power : Option (Bool × Int)) :
    readExponent? (powerText power) = some ((power.map Prod.snd).getD 0) := by
  -- Behind the mark comes a sign, if any, and then the digits of the exponent.
  cases power with
  | none => rfl
  | some choice =>
    obtain ⟨plusSign, exponent⟩ := choice
    have present : Nat.toDigits 10 exponent.natAbs ≠ [] := Nat.toDigits_ne_nil
    have all : ∀ c ∈ Nat.toDigits 10 exponent.natAbs, c.isDigit = true :=
      fun c member => Nat.isDigit_of_mem_toDigits (by decide) (by decide) member
    have digit := startsWithDigit_append [] present all
    rw [List.append_nil] at digit
    -- The sign is taken off, whichever it is.
    have split : splitSign ((if exponent < 0 then ['-'] else if plusSign then ['+'] else []) ++
        Nat.toDigits 10 exponent.natAbs) =
        (decide (exponent < 0), Nat.toDigits 10 exponent.natAbs) := by
      by_cases below : exponent < 0
      · simp only [below, if_true, decide_true]
        rfl
      · simp only [below, if_false, decide_false]
        cases plusSign with
        | true => rfl
        | false => exact splitSign_sign false digit
    -- What is left is the digits, which are read as the size, with the sign put back.
    rw [powerText, readExponent?, split]
    simp only [present, ne_eq, not_false_eq_true, List.all_eq_true.mpr all,
      show ('e' : Char).toLower = 'e' from rfl, and_self, if_true, Nat.ofDigitChars_ten_toDigits,
      decide_eq_true_eq, Option.map_some, Option.getD_some, Option.some.injEq]
    split
    · omega
    · omega

/-- A power of ten starts with its mark. -/
theorem endsDigits_powerText (power : Option (Bool × Int)) : EndsDigits (powerText power) := by
  -- The mark is neither a digit nor the point.
  intro c start
  cases power with
  | none => cases start
  | some choice =>
    rw [powerText, List.head?_cons, Option.some.injEq] at start
    rw [← start]
    decide

end Decimal

/-- The parts of a numeral without a sign: its first digits, those behind a point if there is one,
and a power of ten with the choice of its sign if there is one. -/
structure Numeral where
  whole : List Char
  fraction : Option (List Char)
  power : Option (Bool × Int)

namespace Numeral

/-- The point with the digits behind it, if there is one. -/
def pointText : Option (List Char) → List Char
  | none => []
  | some digits => '.' :: digits

/-- The text of a numeral. -/
def text (numeral : Numeral) : List Char :=
  numeral.whole ++ (pointText numeral.fraction ++ Decimal.powerText numeral.power)

/-- There is a digit in front, and only digits stand around the point. -/
structure IsProper (numeral : Numeral) : Prop where
  ne_nil : numeral.whole ≠ []
  isDigit : ∀ c ∈ numeral.whole ++ numeral.fraction.getD [], c.isDigit = true

/-- The decimal that a numeral writes behind a sign. -/
def decimal (numeral : Numeral) (negative : Bool) : Decimal where
  negative := negative
  digits := Nat.ofDigitChars 10 (numeral.whole ++ numeral.fraction.getD []) 0
  exponent := (numeral.power.map Prod.snd).getD 0 - (numeral.fraction.getD []).length

/-- A proper numeral starts with a digit. -/
theorem startsWithDigit_text {numeral : Numeral} (proper : numeral.IsProper) :
    Decimal.StartsWithDigit numeral.text :=
  Decimal.startsWithDigit_append _ proper.ne_nil (List.forall_mem_append.mp proper.isDigit).1

/-- A numeral is read as the decimal that it writes. -/
theorem read?_text {numeral : Numeral} (proper : numeral.IsProper) (negative : Bool) :
    Decimal.read? (Decimal.sign negative ++ numeral.text) = some (numeral.decimal negative) := by
  -- Whether there is a point decides on how the digits are read.
  obtain ⟨whole, fraction, power⟩ := numeral
  obtain ⟨present, all⟩ := proper
  have ends := Decimal.endsDigits_powerText power
  have raised := Decimal.readExponent?_powerText power
  cases fraction with
  | none =>
    simp only [Option.getD_none, List.append_nil] at all
    simp only [text, pointText, List.nil_append, decimal, Option.getD_none, List.append_nil,
      List.length_nil, Nat.cast_zero, sub_zero]
    exact Decimal.read?_whole negative present all ends raised
  | some digits =>
    exact Decimal.read?_fraction negative present all ends raised

/-- The characters of a numeral behind its sign: digits, the point, and the mark and the signs of a
power of ten. -/
theorem mem_text {numeral : Numeral} (proper : numeral.IsProper) {c : Char}
    (member : c ∈ numeral.text) : c.isDigit = true ∨ c ∈ ['.', 'e', '-', '+'] := by
  -- The parts of the text are looked through one after the other.
  obtain ⟨whole, fraction, power⟩ := numeral
  obtain ⟨first, second⟩ := List.forall_mem_append.mp proper.isDigit
  rcases List.mem_append.mp member with front | later
  · -- The whole part has digits only.
    exact .inl (first c front)
  · rcases List.mem_append.mp later with point | raised
    · -- Behind the point there are digits again.
      cases fraction with
      | none => cases point
      | some digits =>
        rcases List.mem_cons.mp point with rfl | digit
        · exact .inr (by decide)
        · exact .inl (second c digit)
    · -- The power starts with its mark, and then comes its sign.
      cases power with
      | none => cases raised
      | some choice =>
        obtain ⟨plusSign, exponent⟩ := choice
        rcases List.mem_cons.mp raised with rfl | signed
        · exact .inr (by decide)
        · rcases List.mem_append.mp signed with mark | digit
          · -- The sign is a minus, a plus or nothing.
            right
            split at mark
            · rw [List.mem_singleton.mp mark]
              decide
            · split at mark
              · rw [List.mem_singleton.mp mark]
                decide
              · cases mark
          · exact .inl (Nat.isDigit_of_mem_toDigits (by decide) (by decide) digit)

/-- A numeral writes digits with an exponent when it shows them with zeros before and behind them,
and counts the zeros behind them as places. -/
structure Writes (numeral : Numeral) (s : Scientific) (before behind : Nat) : Prop where
  ne_nil : numeral.whole ≠ []
  digits : numeral.whole ++ numeral.fraction.getD [] =
    List.replicate before '0' ++ (s.digits ++ List.replicate behind '0')
  places : (numeral.power.map Prod.snd).getD 0 - ((numeral.fraction.getD []).length : ℕ) =
    s.exponent + 1 - s.digits.length - behind

/-- A numeral that writes digits is made of digits. -/
theorem Writes.isProper {numeral : Numeral} {s : Scientific} {before behind : Nat}
    (writes : numeral.Writes s before behind) (proper : s.IsProper) : numeral.IsProper := by
  -- The digits are those of the number with zeros around them.
  refine ⟨writes.ne_nil, fun c member => ?_⟩
  rw [writes.digits, List.mem_append, List.mem_append] at member
  have zero : ∀ count, c ∈ List.replicate count '0' → c.isDigit = true := by
    intro count inside
    rw [List.eq_of_mem_replicate inside]
    decide
  rcases member with inside | digit | inside
  · exact zero before inside
  · exact proper.isDigit c digit
  · exact zero behind inside

/-- A numeral that writes digits with an exponent writes the same number. -/
theorem Writes.size_decimal {numeral : Numeral} {s : Scientific} {before behind : Nat}
    (writes : numeral.Writes s before behind) (negative : Bool) :
    (numeral.decimal negative).size = s.size := by
  -- The size is the value of the digits, moved by the places behind the point.
  rw [Decimal.size, decimal, Scientific.size]
  simp only [writes.digits, writes.places, Nat.ofDigitChars_append,
    Nat.ofDigitChars_replicate_zero, Nat.mul_zero]
  -- Each zero behind the digits is a factor of ten and a place.
  rw [zpow_sub₀ (by norm_num), zpow_natCast]
  push_cast
  field_simp

/-- The numeral of a number below one: a zero stands in front of the point, and others keep the
places behind it. -/
def belowOne (s : Scientific) : Numeral :=
  ⟨['0'], some (List.replicate (-s.exponent - 1).toNat '0' ++ s.digits), none⟩

/-- The numeral of a number from one up: the digits go on behind the point, or zeros fill the places
in front of it. Then a zero may be written behind the point. -/
def fromOne (wholePoint : Bool) (s : Scientific) : Numeral :=
  let whole := s.exponent.toNat + 1
  let padded := s.digits ++ List.replicate (whole - s.digits.length) '0'
  let fraction := s.digits.drop whole
  ⟨padded.take whole,
    if fraction ≠ [] then some fraction else if wholePoint then some ['0'] else none, none⟩

/-- The numeral with one digit in front of the point and a power of ten. -/
def raised (plusSign : Bool) (s : Scientific) : Numeral :=
  ⟨s.digits.take 1, if s.digits.length ≤ 1 then none else some (s.digits.drop 1),
    some (plusSign, s.exponent)⟩

/-- The numeral of a number below one writes its digits. -/
theorem writes_belowOne {s : Scientific} (small : s.exponent < 0) :
    (belowOne s).Writes s ((-s.exponent - 1).toNat + 1) 0 := by
  -- Such a number is a zero, the point, zeros and its digits.
  refine ⟨List.cons_ne_nil _ _, ?_, ?_⟩
  · rw [belowOne, List.replicate_succ]
    simp
  · simp only [belowOne, Option.map_none, Option.getD_none, Option.getD_some, List.length_append,
      List.length_replicate]
    omega

/-- The numeral of a number from one up writes its digits and the zeros that it needs. -/
theorem exists_writes_fromOne (wholePoint : Bool) {s : Scientific} (proper : s.IsProper)
    (large : 0 ≤ s.exponent) : ∃ behind, (fromOne wholePoint s).Writes s 0 behind := by
  -- The digits reach beyond the point, or zeros fill the places up to it.
  unfold fromOne
  dsimp only
  rcases Nat.lt_or_ge (s.exponent.toNat + 1) s.digits.length with long | short
  · -- With digits left for the places behind the point, none is filled up.
    have goesOn : s.digits.drop (s.exponent.toNat + 1) ≠ [] := by
      rw [ne_eq, List.drop_eq_nil_iff]
      omega
    have full : s.exponent.toNat + 1 - s.digits.length = 0 := by omega
    rw [if_pos goesOn, full, List.replicate_zero, List.append_nil]
    refine ⟨0, ?_, ?_, ?_⟩
    · rw [ne_eq, List.take_eq_nil_iff]
      exact fun none => none.elim (by omega) proper.ne_nil
    · simp
    · simp only [Option.map_none, Option.getD_none, Option.getD_some, List.length_drop]
      omega
  · -- Without any left, zeros fill the places up to the point.
    have ended : s.digits.drop (s.exponent.toNat + 1) = [] := by
      rw [List.drop_eq_nil_iff]
      omega
    have filled : (s.digits ++
        List.replicate (s.exponent.toNat + 1 - s.digits.length) '0').take
          (s.exponent.toNat + 1) =
        s.digits ++ List.replicate (s.exponent.toNat + 1 - s.digits.length) '0' := by
      apply List.take_of_length_le
      rw [List.length_append, List.length_replicate]
      omega
    have some : s.digits ++
        List.replicate (s.exponent.toNat + 1 - s.digits.length) '0' ≠ [] :=
      List.append_ne_nil_of_left_ne_nil proper.ne_nil _
    rw [ended, filled, if_neg (not_not_intro rfl)]
    -- The zero behind the point is one place more.
    split
    · refine ⟨s.exponent.toNat + 1 - s.digits.length + 1, some, ?_, ?_⟩
      · rw [List.replicate_succ']
        simp
      · simp only [Option.map_none, Option.getD_none, Option.getD_some, List.length_singleton]
        omega
    · refine ⟨s.exponent.toNat + 1 - s.digits.length, some, by simp, ?_⟩
      simp only [Option.map_none, Option.getD_none, List.length_nil]
      omega

/-- The numeral with a power of ten writes its digits. -/
theorem writes_raised (plusSign : Bool) {s : Scientific} (proper : s.IsProper) :
    (raised plusSign s).Writes s 0 0 := by
  -- The point stands behind the first digit, and the power makes up for its place.
  have present := List.length_pos_iff.mpr proper.ne_nil
  unfold raised
  refine ⟨?_, ?_, ?_⟩
  · rw [ne_eq, List.take_eq_nil_iff]
    exact fun none => none.elim (by omega) proper.ne_nil
  · split
    · rw [Option.getD_none, List.append_nil, List.take_of_length_le (by omega)]
      simp
    · rw [Option.getD_some, List.take_append_drop]
      simp
  · split
    · simp only [Option.map_some, Option.getD_some, Option.getD_none, List.length_nil]
      omega
    · simp only [Option.map_some, Option.getD_some, List.length_drop]
      omega

end Numeral

namespace Layout

/-- The numeral that a layout makes of digits and an exponent. -/
def numeral (layout : Layout) (s : Scientific) : Numeral :=
  if layout.positional s.exponent then
    if s.exponent < 0 then .belowOne s else .fromOne layout.wholePoint s
  else .raised layout.plusSign s

/-- What a layout writes is its numeral. -/
theorem write_eq_text (layout : Layout) (s : Scientific) :
    layout.write s = (layout.numeral s).text := by
  -- The layout decides first between the two forms, and then on the point.
  unfold write numeral
  split
  · unfold writePositional Numeral.fromOne
    split
    · simp [Numeral.belowOne, Numeral.text, Numeral.pointText, Decimal.powerText]
    · dsimp only
      -- Behind the point stand digits, a zero, or nothing.
      split
      · simp [Numeral.text, Numeral.pointText, Decimal.powerText]
      · split
        · simp [Numeral.text, Numeral.pointText, Decimal.powerText]
        · simp [Numeral.text, Numeral.pointText, Decimal.powerText]
  · unfold writeExponent Numeral.raised
    dsimp only
    split
    · simp [Numeral.text, Numeral.pointText, Decimal.powerText]
    · simp [Numeral.text, Numeral.pointText, Decimal.powerText]

/-- A layout writes the digits, with zeros before or behind them where a place has to be filled. -/
theorem exists_writes_numeral (layout : Layout) {s : Scientific} (proper : s.IsProper) :
    ∃ before behind, (layout.numeral s).Writes s before behind := by
  -- There is one form for each of the three cases.
  rw [numeral]
  split
  · split
    · rename_i small
      exact ⟨_, _, Numeral.writes_belowOne small⟩
    · rename_i large
      exact ⟨0, Numeral.exists_writes_fromOne layout.wholePoint proper (Int.not_lt.mp large)⟩
  · exact ⟨0, 0, Numeral.writes_raised layout.plusSign proper⟩

end Layout

variable {F : BinaryFormat}

/-- A digit is its own small letter, and no word starts with it. -/
theorem Decimal.StartsWithDigit.lower_ne {body : List Char} {letter : Char} {word : List Char}
    (digit : StartsWithDigit body) (isLetter : letter.isDigit = false) :
    Text.lower body ≠ letter :: word := by
  -- The first character is the same in small letters, and it is no letter.
  obtain ⟨first, rest, rfl, isDigit⟩ := digit
  intro same
  have small : first.toLower = first := by
    refine dif_neg fun capital => ?_
    have bound : first.val ≤ '9'.val := by
      simpa [Char.isDigit] using (Bool.and_eq_true_iff.mp isDigit).2
    exact absurd (UInt32.le_trans capital.1 bound) (by decide)
  have head : first = letter := by
    rw [← small]
    exact (List.cons.inj same).1
  rw [head, isLetter] at isDigit
  exact Bool.false_ne_true isDigit

/-- A numeral that starts with a digit is not one of the words, and stands for the number that is
nearest to what it writes. -/
theorem Binary.read?_of_startsWithDigit {negative : Bool} {body : List Char} {d : Decimal}
    (digit : Decimal.StartsWithDigit body)
    (read : Decimal.read? (Decimal.sign negative ++ body) = some d) :
    Binary.read? F (Decimal.sign negative ++ body) = some (d.toBinary F) := by
  -- A word starts with a letter, and what is read starts with a digit.
  have noWord : ∀ letter word, letter.isDigit = false →
      String.ofList (Text.lower body) ≠ String.ofList (letter :: word) :=
    fun letter word isLetter same => digit.lower_ne isLetter (String.ofList_injective same)
  have noInf : String.ofList (Text.lower body) ≠ "inf" := noWord 'i' ['n', 'f'] rfl
  have noInfinity : String.ofList (Text.lower body) ≠ "infinity" :=
    noWord 'i' ['n', 'f', 'i', 'n', 'i', 't', 'y'] rfl
  have noNan : String.ofList (Text.lower body) ≠ "nan" := noWord 'n' ['a', 'n'] rfl
  rw [Binary.read?, Decimal.splitSign_sign negative digit]
  simp only [noInf, noInfinity, noNan, or_self, if_false, read, Option.map_some]

namespace Finite

/-- The numeral of a finite number writes its shortest digits behind its sign. -/
theorem exists_numeral (layout : Layout) (x : Finite F) : ∃ numeral : Numeral,
    x.write layout = Decimal.sign x.negative ++ numeral.text ∧ numeral.IsProper ∧
      (numeral.decimal x.negative).size = (x.shortest layout.tie).size := by
  -- The digits of the number are laid out in one of the forms.
  have proper := x.isProper_shortest layout.tie
  obtain ⟨before, behind, writes⟩ := layout.exists_writes_numeral proper
  refine ⟨_, ?_, writes.isProper proper, writes.size_decimal x.negative⟩
  rw [write, Layout.write_eq_text]
  rfl

/-- What is written of a finite number reads as a decimal and stands for the number. -/
theorem read?_write (wide : 2 ≤ F.precision) (layout : Layout) (x : Finite F) :
    (∃ d, Decimal.read? (x.write layout) = some d) ∧
      Binary.read? F (x.write layout) = some (.finite x) := by
  -- What is written is a numeral, which is read as the decimal that it writes.
  obtain ⟨numeral, text, proper, size⟩ := x.exists_numeral layout
  have read := Numeral.read?_text proper x.negative
  -- The decimal that was written is nearest to the number from which the digits came.
  have nearest := x.isNearest_shortest layout.tie
  rw [← size] at nearest
  rw [text]
  refine ⟨⟨_, read⟩, ?_⟩
  rw [Binary.read?_of_startsWithDigit (Numeral.startsWithDigit_text proper) read,
    Decimal.toBinary_eq_ofIndex wide nearest, Binary.ofIndex_of_lt x.index.isLt]
  rfl

/-- The characters of a finite number: digits, the point, signs, and the mark of a power of ten. -/
theorem mem_write {layout : Layout} {x : Finite F} {c : Char} (member : c ∈ x.write layout) :
    c.isDigit = true ∨ c ∈ ['.', 'e', '-', '+'] := by
  -- The sign is written in front of the numeral.
  obtain ⟨numeral, text, proper, _⟩ := x.exists_numeral layout
  rw [text] at member
  rcases List.mem_append.mp member with sign | behind
  · rw [Decimal.sign] at sign
    split at sign
    · rw [List.mem_singleton.mp sign]
      exact .inr (by decide)
    · cases sign
  · exact numeral.mem_text proper behind

end Finite

namespace Binary

/-- What is written of a number is read as the number, also when it is infinite or none. -/
theorem read?_write (wide : 2 ≤ F.precision) (layout : Layout) (x : Binary F) :
    read? F (x.write layout) = some x := by
  -- Only what is finite is written in digits.
  cases x with
  | nan => rfl
  | infinite negative => cases negative <;> rfl
  | finite x => exact (x.read?_write wide layout).2

/-- The characters of a number: those of a finite one, and the letters of the words. -/
theorem mem_write {layout : Layout} {x : Binary F} {c : Char} (member : c ∈ x.write layout) :
    c.isDigit = true ∨ c ∈ ['.', 'e', '-', '+', 'i', 'n', 'f', 'N', 'a'] := by
  -- Only what is finite is written in digits, and the rest in letters.
  cases x with
  | nan =>
    have letters : ['N', 'a', 'N'] ⊆ ['.', 'e', '-', '+', 'i', 'n', 'f', 'N', 'a'] := by decide
    exact .inr (letters member)
  | infinite negative =>
    have letters : ∀ sign : Bool, (if sign then ['-'] else []) ++ ['i', 'n', 'f'] ⊆
        ['.', 'e', '-', '+', 'i', 'n', 'f', 'N', 'a'] := by decide
    exact .inr (letters negative member)
  | finite x =>
    have marks : ['.', 'e', '-', '+'] ⊆ ['.', 'e', '-', '+', 'i', 'n', 'f', 'N', 'a'] := by decide
    exact (Finite.mem_write member).imp_right fun mark => marks mark

/-- A number is written in one way only. -/
theorem write_injective (wide : 2 ≤ F.precision) (layout : Layout) {x y : Binary F}
    (same : x.write layout = y.write layout) : x = y := by
  -- What is written of a number is read back as that number.
  have left := read?_write wide layout x
  rw [same, read?_write wide layout y] at left
  exact (Option.some.inj left).symm

end Binary

end Warrant
