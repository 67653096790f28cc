import Warrant.Hash.Digest
import Warrant.Proofs.Time.Calendar
import Warrant.Proofs.Time.Fields

/-! Instants are read back from the texts that are written for them, as long as their years have
four digits, and these texts come in the order of the instants. -/

namespace Warrant

/-- A character of ASCII takes the byte of its code. -/
theorem utf8_cons {c : Char} (ascii : c.toNat < 128) (rest : List Char) :
    utf8 (c :: rest) = .ofNat c.toNat :: utf8 rest := by
  -- Codes below 128 are encoded as they are.
  have single : String.utf8EncodeChar c = [.ofNat c.toNat] :=
    if_pos (Nat.le_of_lt_succ ascii)
  rw [utf8, List.flatMap_cons, single]
  rfl

/-- The bytes of ASCII texts are ordered as the texts are. -/
theorem utf8_lt_utf8_iff {a b : List Char} (asciiA : ∀ c ∈ a, c.toNat < 128)
    (asciiB : ∀ c ∈ b, c.toNat < 128) : utf8 a < utf8 b ↔ a < b := by
  -- By induction on the texts, of which the first unequal characters decide, as do their bytes.
  induction a generalizing b with
  | nil =>
    cases b with
    | nil => exact iff_of_false (List.not_lt_nil _) (List.not_lt_nil _)
    | cons d others =>
      obtain ⟨ascii, _⟩ := List.forall_mem_cons.mp asciiB
      rw [utf8_cons ascii]
      exact iff_of_true (List.nil_lt_cons _ _) (List.nil_lt_cons _ _)
  | cons c rest ih =>
    obtain ⟨asciiC, asciiRest⟩ := List.forall_mem_cons.mp asciiA
    cases b with
    | nil => exact iff_of_false (List.not_lt_nil _) (List.not_lt_nil _)
    | cons d others =>
      obtain ⟨asciiD, asciiOthers⟩ := List.forall_mem_cons.mp asciiB
      rw [utf8_cons asciiC, utf8_cons asciiD, List.cons_lt_cons_iff, List.cons_lt_cons_iff,
        ih asciiRest asciiOthers]
      -- The bytes are the codes.
      have codeC := UInt8.toNat_ofNat_of_lt' (Nat.lt_trans asciiC (by decide : 128 < UInt8.size))
      have codeD := UInt8.toNat_ofNat_of_lt' (Nat.lt_trans asciiD (by decide : 128 < UInt8.size))
      have less : UInt8.ofNat c.toNat < UInt8.ofNat d.toNat ↔ c < d := by
        rw [UInt8.lt_iff_toNat_lt, codeC, codeD]
        rfl
      have same : UInt8.ofNat c.toNat = UInt8.ofNat d.toNat ↔ c = d := by
        rw [← UInt8.toNat_inj, codeC, codeD, Char.toNat_inj]
      rw [less, same]

/-- Digits are ASCII. -/
theorem Text.toNat_lt_of_isDigit {c : Char} (digit : c.isDigit = true) : c.toNat < 128 := by
  simp only [Char.isDigit, Bool.and_eq_true, decide_eq_true_eq, UInt32.le_iff_toNat_le] at digit
  exact Nat.lt_of_le_of_lt digit.2 (by decide)

namespace Stamp

/-- The fields of a whole second have the widths of their places. -/
structure Fits (s : Stamp) : Prop where
  year : 0 ≤ s.date.year ∧ s.date.year ≤ 9999
  month : s.date.month < 10 ^ 2
  day : s.date.day < 10 ^ 2
  hour : s.hour < 10 ^ 2
  minute : s.minute < 10 ^ 2
  second : s.second < 10 ^ 2

/-- The places of the fields in a text. -/
theorem write_eq {s : Stamp} (year : 0 ≤ s.date.year ∧ s.date.year ≤ 9999) :
    s.write ++ ['Z'] = pad 4 s.date.year.natAbs ++ '-' :: (pad 2 s.date.month ++
      '-' :: (pad 2 s.date.day ++ 'T' :: (pad 2 s.hour ++ ':' :: (pad 2 s.minute ++
        ':' :: (pad 2 s.second ++ ['Z']))))) := by
  simp [write, writeYear, year]

/-- The fields of a whole second are read back. -/
theorem readStrict?_write {s : Stamp} (fits : s.Fits) (whole : s.nanos = 0) :
    readStrict? (s.write ++ ['Z']) = some (s, 0) := by
  -- The year is not negative, so that it is written as its own size.
  have year : s.date.year.natAbs < 10 ^ 4 := by
    have := fits.year
    omega
  have positive : (s.date.year.natAbs : Int) = s.date.year := by
    have := fits.year
    omega
  have field {n : Nat} (narrow : n < 10 ^ 2) (rest : List Char) :=
    readNumber?_pad (by decide) narrow rest
  -- Every field is read, and after it the mark that stands behind it.
  rw [write_eq fits.year]
  refine Option.bind_eq_some_iff.mpr ⟨_, readNumber?_pad (by decide) year _, ?_⟩
  refine Option.bind_eq_some_iff.mpr ⟨_, rfl, ?_⟩
  refine Option.bind_eq_some_iff.mpr ⟨_, field fits.month _, ?_⟩
  refine Option.bind_eq_some_iff.mpr ⟨_, rfl, ?_⟩
  refine Option.bind_eq_some_iff.mpr ⟨_, field fits.day _, ?_⟩
  refine Option.bind_eq_some_iff.mpr ⟨_, rfl, ?_⟩
  refine Option.bind_eq_some_iff.mpr ⟨_, field fits.hour _, ?_⟩
  refine Option.bind_eq_some_iff.mpr ⟨_, rfl, ?_⟩
  refine Option.bind_eq_some_iff.mpr ⟨_, field fits.minute _, ?_⟩
  refine Option.bind_eq_some_iff.mpr ⟨_, rfl, ?_⟩
  refine Option.bind_eq_some_iff.mpr ⟨_, field fits.second _, ?_⟩
  -- There is no fraction, and the letter at the end is that of universal time.
  obtain ⟨date, hour, minute, second, nanos⟩ := s
  cases whole
  show some ((⟨⟨_, _, _⟩, hour, minute, second, 0⟩ : Stamp), (0 : Int)) = _
  rw [positive]

/-- What does not begin with a digit is not read. -/
theorem readStrict?_cons_of_not_digit {c : Char} (sign : c.isDigit = false) (rest : List Char) :
    readStrict? (c :: rest) = none := by
  -- The year is read first, and it wants four digits.
  have noYear : readNumber? 4 4 (c :: rest) = none := by
    simp [readNumber?, sign]
  rw [readStrict?, noYear]
  rfl

/-- Texts of narrow fields come in the order of the dates, and on one date in that of the hours,
minutes and seconds. -/
theorem write_lt_write_iff {a b : Stamp} (fitsA : a.Fits) (fitsB : b.Fits) :
    a.write ++ ['Z'] < b.write ++ ['Z'] ↔ a.date.Before b.date ∨ a.date = b.date ∧
      (a.hour < b.hour ∨ a.hour = b.hour ∧ (a.minute < b.minute ∨ a.minute = b.minute ∧
        a.second < b.second)) := by
  -- Every field is narrow enough for its width, so that the fields decide one after the other.
  have four : 0 < 4 := by decide
  have two : 0 < 2 := by decide
  have yearA : a.date.year.natAbs < 10 ^ 4 := by
    have := fitsA.year
    omega
  have yearB : b.date.year.natAbs < 10 ^ 4 := by
    have := fitsB.year
    omega
  have mark (c : Char) (x y : List Char) : c :: x < c :: y ↔ x < y := by
    simp
  rw [write_eq fitsA.year, write_eq fitsB.year]
  simp only [pad_append_lt_iff four yearA yearB,
    pad_append_lt_iff two fitsA.month fitsB.month, pad_append_lt_iff two fitsA.day fitsB.day,
    pad_append_lt_iff two fitsA.hour fitsB.hour, pad_append_lt_iff two fitsA.minute fitsB.minute,
    pad_append_lt_iff two fitsA.second fitsB.second, mark, List.lt_irrefl, and_false, or_false]
  -- The years are not negative, so that their sizes are the years.
  have same : a.date = b.date ↔
      a.date.year = b.date.year ∧ a.date.month = b.date.month ∧ a.date.day = b.date.day := by
    cases a.date
    cases b.date
    simp
  have years := fitsA.year
  have others := fitsB.year
  rw [same]
  unfold Date.Before
  omega

/-- The text of narrow fields is ASCII. -/
theorem toNat_lt_of_mem_write {s : Stamp} (fits : s.Fits) :
    ∀ c ∈ s.write ++ ['Z'], c.toNat < 128 := by
  -- The text is made of padded numbers and marks, both of them in ASCII.
  have digit {width n : Nat} : ∀ c ∈ pad width n, c.toNat < 128 := by
    intro c member
    exact Text.toNat_lt_of_isDigit (isDigit_of_mem_pad member)
  rw [write_eq fits.year]
  simp only [List.forall_mem_append, List.forall_mem_cons]
  exact ⟨digit, by decide, digit, by decide, digit, by decide, digit, by decide, digit, by decide,
    digit, by decide, nofun⟩

end Stamp

namespace Instant

/-- The year of an instant has four digits and no sign. -/
def HasPlainYear (t : Instant) : Prop :=
  0 ≤ t.stamp.date.year ∧ t.stamp.date.year ≤ 9999

/-- The instant at the beginning of a second has that second, and no part of it is over. -/
theorem ofSecond_eq_ok_iff {second : Int} {t : Instant} :
    ofSecond second = .ok t ↔ t.second = second ∧ t.nanos = 0 := by
  -- The error stands for an instant that is out of range.
  rw [← ofSecond?_eq_some_iff, ofSecond]
  cases ofSecond? second with
  | none => exact iff_of_false nofun nofun
  | some other => rw [Except.ok.injEq, Option.some.injEq]

/-- The seconds of the day are those of the hour, the minute and the second of the fields. -/
theorem second_emod_day {t : Instant} (whole : t.nanos = 0) : t.second % Stamp.secondsPerDay =
    3600 * t.stamp.hour + 60 * t.stamp.minute + t.stamp.second ∧ t.stamp.hour < 24 ∧
      t.stamp.minute < 60 ∧ t.stamp.second < 60 := by
  -- The fields are the quotients and the rests of the seconds of the day.
  have noLeap : t.isLeap = false := by
    simp [isLeap, whole, nanosPerSecond]
  simp [stamp, noLeap, Stamp.secondsPerDay]
  omega

/-- The fields of a whole second are narrow, when the year is. -/
theorem fits_stamp {t : Instant} (whole : t.nanos = 0) (year : t.HasPlainYear) :
    t.stamp.Fits := by
  -- The clock gives bounds to its fields, and the calendar to those of the date.
  obtain ⟨_, hour, minute, second⟩ := second_emod_day whole
  have valid : t.stamp.date.isValid = true := Date.isValid_ofDays _
  obtain ⟨_, month, _, day⟩ := Date.isValid_iff.mp valid
  have days := Date.daysInMonth_range t.stamp.date.year t.stamp.date.month
  exact ⟨year, by omega, by omega, by omega, by omega, by omega⟩

/-- The fields of a whole second tell the instant. -/
theorem instant?_stamp {t : Instant} (whole : t.nanos = 0) (year : t.HasPlainYear) :
    t.stamp.instant? 0 = some t := by
  -- The fields are put together again as they were taken apart.
  obtain ⟨inDay, hour, minute, second⟩ := second_emod_day whole
  have valid : t.stamp.date.isValid = true := Date.isValid_ofDays _
  have days : t.stamp.date.toDays = t.second / Stamp.secondsPerDay := Date.toDays_ofDays _
  have nanos : t.stamp.nanos = 0 := by
    rw [stamp, whole]
    rfl
  have yearRange : Stamp.firstYear ≤ t.stamp.date.year ∧ t.stamp.date.year ≤ Stamp.lastYear := by
    simp only [HasPlainYear, Stamp.firstYear, Stamp.lastYear] at year ⊢
    omega
  have fieldsValid : t.stamp.isValid = true := by
    simp only [Stamp.isValid, Bool.and_eq_true, decide_eq_true_eq, valid, nanos]
    exact ⟨⟨⟨⟨⟨yearRange, trivial⟩, hour⟩, minute⟩, by omega⟩, by decide⟩
  -- The day and the seconds of the day make up the second again, which is no leap second.
  have secondSame : t.stamp.toSecond - 0 = t.second := by
    simp only [Stamp.toSecond, days, Stamp.secondsPerDay] at inDay ⊢
    omega
  have noLeap : (t.stamp.nanos + if t.stamp.second = 60 then nanosPerSecond else 0) = t.nanos := by
    rw [nanos, if_neg (by omega), whole]
  rw [Stamp.instant?, if_pos ⟨fieldsValid, by decide⟩, secondSame, noLeap, make?,
    dif_pos t.within, dif_pos t.bounded]

/-- A whole second whose year has four digits is read back. -/
theorem readUniversal_iso {t : Instant} (whole : t.nanos = 0) (year : t.HasPlainYear) :
    readUniversal t.iso = .ok t := by
  -- The fields are read back without a fraction, so that nothing is truncated.
  have nanos : t.stamp.nanos = 0 := by
    rw [stamp, whole]
    rfl
  have truncated : t.truncate = t := by
    cases t
    cases whole
    rfl
  rw [readUniversal, iso, String.toList_ofList, List.getLast?_concat, if_pos rfl, read,
    String.toList_ofList, Stamp.readStrict?_write (fits_stamp whole year) nanos]
  simp only [Option.bind_some, instant?_stamp whole year, truncated]

/-- A sign in front of the year is not read. -/
theorem readUniversal_iso_of_sign {t : Instant} (sign : ¬ t.HasPlainYear) :
    readUniversal t.iso = .error (.malformed t.iso) := by
  -- The first character is no digit.
  have unread : Stamp.readStrict? t.iso.toList = none := by
    rw [HasPlainYear] at sign
    rw [iso, String.toList_ofList, Stamp.write, Stamp.writeYear, if_neg sign]
    simp only [List.cons_append]
    apply Stamp.readStrict?_cons_of_not_digit
    split <;> rfl
  have universal : t.iso.toList.getLast? = some 'Z' := by
    rw [iso, String.toList_ofList, List.getLast?_concat]
  rw [readUniversal, if_pos universal, read, unread]
  rfl

/-- The bytes of the texts come in the order of the seconds. -/
theorem iso_lt_iso_iff {a b : Instant} (wholeA : a.nanos = 0) (wholeB : b.nanos = 0)
    (yearA : a.HasPlainYear) (yearB : b.HasPlainYear) :
    utf8 a.iso.toList < utf8 b.iso.toList ↔ a.second < b.second := by
  -- The fields are compared as they are written, which is in the order of the seconds.
  have fitsA := fits_stamp wholeA yearA
  have fitsB := fits_stamp wholeB yearB
  obtain ⟨dayA, hourA, minuteA, secondA⟩ := second_emod_day wholeA
  obtain ⟨dayB, hourB, minuteB, secondB⟩ := second_emod_day wholeB
  have earlier : a.stamp.date.Before b.stamp.date ↔
      a.second / Stamp.secondsPerDay < b.second / Stamp.secondsPerDay :=
    Date.ofDays_before_iff _ _
  have sameDay : a.stamp.date = b.stamp.date ↔
      a.second / Stamp.secondsPerDay = b.second / Stamp.secondsPerDay :=
    ⟨fun same => by simpa [stamp] using congrArg Date.toDays same, congrArg Date.ofDays⟩
  rw [iso, iso, String.toList_ofList, String.toList_ofList,
    utf8_lt_utf8_iff (Stamp.toNat_lt_of_mem_write fitsA) (Stamp.toNat_lt_of_mem_write fitsB),
    Stamp.write_lt_write_iff fitsA fitsB, earlier, sameDay]
  simp only [Stamp.secondsPerDay] at dayA dayB ⊢
  omega

/-- The years of four digits are those between two seconds. -/
theorem hasPlainYear_iff (t : Instant) :
    t.HasPlainYear ↔ -62167219200 ≤ t.second ∧ t.second ≤ 253402300799 := by
  -- The first seconds of the years 0 and 10000 are the two bounds.
  have first := Date.year_ofDays_lt_iff (t.second / Stamp.secondsPerDay) 0
  have last := Date.year_ofDays_lt_iff (t.second / Stamp.secondsPerDay) 10000
  have yearZero : Date.toDays ⟨0, 1, 1⟩ = -719528 := by decide
  have yearTenThousand : Date.toDays ⟨10000, 1, 1⟩ = 2932897 := by decide
  rw [yearZero] at first
  rw [yearTenThousand] at last
  simp only [HasPlainYear, stamp, Stamp.secondsPerDay] at first last ⊢
  omega

/-- The text of a whole second is read back as that second exactly when its year has four digits,
which are the years from one second to another. Any other year has a sign, and its text is
malformed. The bytes of the texts with four digits come in the order of the seconds. -/
theorem iso_of_ofSecond {second : Int} {t : Instant} (made : ofSecond second = .ok t) :
    (t.HasPlainYear ↔ -62167219200 ≤ second ∧ second ≤ 253402300799) ∧
    (readUniversal t.iso = .ok t ↔ t.HasPlainYear) ∧
    (¬ t.HasPlainYear → readUniversal t.iso = .error (.malformed t.iso)) ∧
    ∀ (other : Int) (u : Instant), ofSecond other = .ok u → t.HasPlainYear → u.HasPlainYear →
      (utf8 t.iso.toList < utf8 u.iso.toList ↔ second < other) := by
  -- The instant is a whole second, of which the parts have been proved above.
  obtain ⟨rfl, whole⟩ := ofSecond_eq_ok_iff.mp made
  refine ⟨hasPlainYear_iff t, ⟨fun read => ?_, readUniversal_iso whole⟩, readUniversal_iso_of_sign,
    fun other u madeU yearT yearU => ?_⟩
  · -- A text with a sign has not been read.
    by_contra sign
    rw [readUniversal_iso_of_sign sign] at read
    cases read
  · obtain ⟨rfl, wholeU⟩ := ofSecond_eq_ok_iff.mp madeU
    exact iso_lt_iso_iff whole wholeU yearT yearU

/-- The last second of the year 9999 is read back, and the first of the year 0 has a text that comes
before its text. The text of the second that follows it is malformed. -/
theorem iso_of_lastPlainSecond :
    let first : Instant := ⟨-62167219200, 0, by decide, by decide⟩
    let last : Instant := ⟨253402300799, 0, by decide, by decide⟩
    let next : Instant := ⟨253402300800, 0, by decide, by decide⟩
    readUniversal last.iso = .ok last ∧ utf8 first.iso.toList < utf8 last.iso.toList ∧
      readUniversal next.iso = .error (.malformed next.iso) := by
  -- Each of the instants is made from its second, to which the general result applies.
  intro first last next
  have made : ∀ t : Instant, t.nanos = 0 → ofSecond t.second = .ok t := fun _ whole =>
    ofSecond_eq_ok_iff.mpr ⟨rfl, whole⟩
  obtain ⟨firstRange, _, _, order⟩ := iso_of_ofSecond (made first rfl)
  obtain ⟨lastRange, readBack, _, _⟩ := iso_of_ofSecond (made last rfl)
  obtain ⟨nextRange, _, malformed, _⟩ := iso_of_ofSecond (made next rfl)
  have firstPlain : first.HasPlainYear := firstRange.mpr (by decide)
  have lastPlain : last.HasPlainYear := lastRange.mpr (by decide)
  have nextSigned : ¬ next.HasPlainYear := mt nextRange.mp (by decide)
  exact ⟨readBack.mpr lastPlain, (order _ _ (made _ rfl) firstPlain lastPlain).mpr (by decide),
    malformed nextSigned⟩

end Instant

end Warrant
