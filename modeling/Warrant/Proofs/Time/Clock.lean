import Warrant.Proofs.Time.Written

/-! Shifts by way of the calendar, in machine words. Hours become a span of bounded length, the span
is added to the time of the day, and the days that are full are carried to the date. No bound on
this way is felt: an instant is shifted as its seconds are, to wherever the calendar reaches. -/

namespace Warrant

namespace Span

/-- The seconds of the longest span. Its milliseconds still fit into a word. -/
def longest : Int := 9223372036854775

end Span

/-- A number of whole seconds that may be added to a time. -/
structure Span where
  seconds : Int64
  within : -Span.longest ≤ seconds.toInt ∧ seconds.toInt ≤ Span.longest

namespace Span

/-- The span of some seconds, unless it is too long. -/
def ofSeconds? (seconds : Int64) : Option Span :=
  if within : -longest ≤ seconds.toInt ∧ seconds.toInt ≤ longest then some ⟨seconds, within⟩
  else none

/-- The span of some hours, unless its seconds overflow or it is too long. -/
def ofHours? (hours : Int64) : Option Span :=
  let exact := 3600 * hours.toInt
  if Int64.minValue.toInt ≤ exact ∧ exact ≤ Int64.maxValue.toInt then ofSeconds? (3600 * hours)
  else none

end Span

/-- A date some days later or earlier, if it lies in the years of the calendar. The number of days
has half a word. -/
def Date.addDays? (date : Date) (days : Int) : Option Date :=
  if -2147483648 ≤ days ∧ days ≤ 2147483647 then
    let moved := ofDays (date.toDays + days)
    if Stamp.firstYear ≤ moved.year ∧ moved.year ≤ Stamp.lastYear then some moved else none
  else none

/-- A time as a date, the seconds since midnight, and the nanoseconds since the last of them began.
-/
structure Clock where
  date : Date
  second : Int64
  nanos : Nat
deriving DecidableEq

namespace Clock

/-- The time on a date at so many seconds from midnight, of which the full days are carried to the
date. -/
def carry? (date : Date) (seconds : Int64) (nanos : Nat) : Option Clock := do
  let inDay := Int64.ofInt (seconds.toInt % Stamp.secondsPerDay)
  let carried ← Span.ofSeconds? (seconds - inDay)
  let moved ← date.addDays? (carried.seconds.toInt / Stamp.secondsPerDay)
  return ⟨moved, inDay, nanos⟩

/-- Adds a span to the time of the day. A leap second is left for the second before it on the way
forward, and for the one after it on the way back. -/
def add? (clock : Clock) (span : Span) : Option Clock :=
  if Instant.nanosPerSecond ≤ clock.nanos ∧ span.seconds ≠ 0 then
    carry? clock.date (clock.second + (if span.seconds < 0 then 1 else 0) + span.seconds)
      (clock.nanos - Instant.nanosPerSecond)
  else carry? clock.date (clock.second + span.seconds) clock.nanos

/-- A time some hours later or earlier. -/
def addHours? (clock : Clock) (hours : Int64) : Option Clock :=
  (Span.ofHours? hours).bind clock.add?

/-- The seconds from the start of 1970 to a time. -/
def epoch (clock : Clock) : Int :=
  clock.date.toDays * Stamp.secondsPerDay + clock.second.toInt

end Clock

/-- The date and the time of the day of an instant. -/
def Instant.clock (t : Instant) : Clock :=
  ⟨.ofDays (t.second / Stamp.secondsPerDay), .ofInt (t.second % Stamp.secondsPerDay), t.nanos⟩

/-- A number that fits into a word is the value of the word. -/
theorem toInt_ofInt_of_fits {n : Int} (low : -9223372036854775808 ≤ n)
    (high : n ≤ 9223372036854775807) : (Int64.ofInt n).toInt = n :=
  Int64.toInt_ofInt_of_le (by omega) (by omega)

/-- A sum that fits into a word does not wrap around. -/
theorem toInt_add_of_fits {a b : Int64} (low : -9223372036854775808 ≤ a.toInt + b.toInt)
    (high : a.toInt + b.toInt ≤ 9223372036854775807) : (a + b).toInt = a.toInt + b.toInt := by
  rw [Int64.toInt_add]
  exact Int.bmod_eq_of_le_mul_two (by omega) (by omega)

/-- A difference that fits into a word does not wrap around. -/
theorem toInt_sub_of_fits {a b : Int64} (low : -9223372036854775808 ≤ a.toInt - b.toInt)
    (high : a.toInt - b.toInt ≤ 9223372036854775807) : (a - b).toInt = a.toInt - b.toInt := by
  rw [Int64.toInt_sub]
  exact Int.bmod_eq_of_le_mul_two (by omega) (by omega)

namespace Span

/-- The span of some seconds has these seconds, and there is one unless they are too many. -/
theorem ofSeconds?_eq_some_iff {seconds : Int64} {span : Span} :
    ofSeconds? seconds = some span ↔ span.seconds = seconds := by
  -- The constructor asks for the range, of which every span carries a proof.
  rw [ofSeconds?]
  constructor
  · intro made
    split at made
    · cases made
      rfl
    · cases made
  · rintro rfl
    rw [dif_pos span.within]

/-- Seconds have no span exactly when they exceed the longest. -/
theorem ofSeconds?_eq_none_iff {seconds : Int64} :
    ofSeconds? seconds = none ↔ seconds.toInt < -longest ∨ longest < seconds.toInt := by
  rw [ofSeconds?]
  split <;> simp <;> omega

/-- The span of some hours has 3600 seconds for each of them, and none of the bounds refuses hours
that have a span. -/
theorem ofHours?_eq_some_iff {hours : Int64} {span : Span} :
    ofHours? hours = some span ↔ span.seconds.toInt = 3600 * hours.toInt := by
  -- The product is that of the numbers as long as it fits into a word.
  have product (low : -9223372036854775808 ≤ 3600 * hours.toInt)
      (high : 3600 * hours.toInt ≤ 9223372036854775807) :
      (3600 * hours).toInt = 3600 * hours.toInt := by
    rw [Int64.toInt_mul, show (3600 : Int64).toInt = 3600 from rfl]
    exact Int.bmod_eq_of_le_mul_two (by omega) (by omega)
  rw [ofHours?, Int64.toInt_minValue, Int64.toInt_maxValue]
  constructor
  · intro made
    split at made
    · rename_i fits
      rw [ofSeconds?_eq_some_iff.mp made, product (by omega) (by omega)]
    · cases made
  · intro seconds
    -- The longest span is shorter than what fits into a word.
    have within := span.within
    rw [seconds, longest] at within
    rw [if_pos (by omega), ofSeconds?_eq_some_iff, ← Int64.toInt_inj, seconds,
      product (by omega) (by omega)]

/-- Hours have no span exactly when their seconds exceed the longest. -/
theorem ofHours?_eq_none_iff {hours : Int64} :
    ofHours? hours = none ↔ 3600 * hours.toInt < -longest ∨ longest < 3600 * hours.toInt := by
  -- The product is computed with words, which hold it whenever a span does.
  constructor
  · intro missing
    by_contra within
    -- The seconds would make a span.
    have fits : (Int64.ofInt (3600 * hours.toInt)).toInt = 3600 * hours.toInt := by
      rw [longest] at within
      exact toInt_ofInt_of_fits (by omega) (by omega)
    have found : ofHours? hours = some ⟨.ofInt (3600 * hours.toInt), by omega⟩ :=
      ofHours?_eq_some_iff.mpr fits
    rw [missing] at found
    cases found
  · intro far
    rw [Option.eq_none_iff_forall_ne_some]
    intro span made
    have within := span.within
    rw [ofHours?_eq_some_iff.mp made] at within
    omega

end Span

namespace Date

/-- The days of the calendar, from the first of January of its first year to the last of December of
its last year. -/
def InCalendar (day : Int) : Prop :=
  -96465292 ≤ day ∧ day ≤ 95026236

instance (day : Int) : Decidable (InCalendar day) :=
  inferInstanceAs (Decidable (-96465292 ≤ day ∧ day ≤ 95026236))

/-- The days of the calendar are those of its years. -/
theorem year_ofDays_range_iff (day : Int) :
    (Stamp.firstYear ≤ (ofDays day).year ∧ (ofDays day).year ≤ Stamp.lastYear) ↔
      InCalendar day := by
  -- The first and the last day of the calendar are those of its first and last year.
  have first := year_ofDays_lt_iff day Stamp.firstYear
  have last := year_ofDays_lt_iff day (Stamp.lastYear + 1)
  rw [show toDays ⟨Stamp.firstYear, 1, 1⟩ = -96465292 by decide] at first
  rw [show toDays ⟨Stamp.lastYear + 1, 1, 1⟩ = 95026237 by decide] at last
  rw [InCalendar]
  omega

/-- From a day of the calendar every other day of it is reached, and no day outside. -/
theorem addDays?_ofDays {day : Int} (within : InCalendar day) (days : Int) :
    (ofDays day).addDays? days =
      if InCalendar (day + days) then some (ofDays (day + days)) else none := by
  -- The reader of the calendar asks for the year, which is asking for the day.
  simp only [addDays?, toDays_ofDays, year_ofDays_range_iff]
  by_cases fits : -2147483648 ≤ days ∧ days ≤ 2147483647
  · rw [if_pos fits]
  · -- So many days lead out of the calendar anyway.
    have outside : ¬ InCalendar (day + days) := by
      unfold InCalendar at within ⊢
      omega
    rw [if_neg fits, if_neg outside]

end Date

namespace Instant

variable (t : Instant)

/-- An instant lies on a day of the calendar. -/
theorem day_inCalendar : Date.InCalendar (t.second / Stamp.secondsPerDay) := by
  -- The bounds of an instant are the first and the last second of the calendar's days.
  have within := t.within
  rw [earliest, latest] at within
  rw [Date.InCalendar, Stamp.secondsPerDay]
  omega

/-- The seconds of the day are counted in a word. -/
@[simp] theorem toInt_second_clock : t.clock.second.toInt = t.second % Stamp.secondsPerDay := by
  refine toInt_ofInt_of_fits ?_ ?_ <;> simp only [Stamp.secondsPerDay] <;> omega

/-- The date and the time of the day make up the seconds since 1970. -/
@[simp] theorem epoch_clock : t.clock.epoch = t.second := by
  rw [Clock.epoch, toInt_second_clock, clock, Date.toDays_ofDays, Stamp.secondsPerDay]
  omega

/-- A second that the calendar reaches has a date and a time of the day. -/
theorem map_clock_make? {second : Int} {nanos : Nat}
    (within : earliest ≤ second ∧ second ≤ latest) (bounded : nanos < 2 * nanosPerSecond) :
    (make? second nanos).map clock = some ⟨.ofDays (second / Stamp.secondsPerDay),
      .ofInt (second % Stamp.secondsPerDay), nanos⟩ := by
  rw [make?, dif_pos within, dif_pos bounded]
  rfl

end Instant

namespace Clock

/-- Seconds from the midnight of a day are carried to the date as they are counted from 1970. -/
theorem carry?_ofDays {day : Int} (within : Date.InCalendar day) {seconds : Int64}
    (low : -Span.longest - 86400 ≤ seconds.toInt) (high : seconds.toInt ≤ Span.longest + 86400)
    {nanos : Nat} (bounded : nanos < 2 * Instant.nanosPerSecond) :
    carry? (.ofDays day) seconds nanos =
      (Instant.make? (Stamp.secondsPerDay * day + seconds.toInt) nanos).map Instant.clock := by
  rw [Span.longest] at low high
  -- The full days and the rest of the day are those of the seconds since 1970.
  have inDay : (Int64.ofInt (seconds.toInt % Stamp.secondsPerDay)).toInt =
      seconds.toInt % 86400 := by
    rw [Stamp.secondsPerDay]
    exact toInt_ofInt_of_fits (by omega) (by omega)
  -- Without the rest, the seconds are full days.
  have carried : (seconds - Int64.ofInt (seconds.toInt % Stamp.secondsPerDay)).toInt =
      86400 * (seconds.toInt / 86400) := by
    rw [toInt_sub_of_fits (by omega) (by omega), inDay]
    omega
  have days : (Stamp.secondsPerDay * day + seconds.toInt) / Stamp.secondsPerDay =
      day + seconds.toInt / 86400 := by
    rw [Stamp.secondsPerDay]
    omega
  have rest : (Stamp.secondsPerDay * day + seconds.toInt) % Stamp.secondsPerDay =
      seconds.toInt % Stamp.secondsPerDay := by
    rw [Stamp.secondsPerDay]
    omega
  -- The bounds of an instant are those of the days of the calendar.
  have reached : (Instant.earliest ≤ Stamp.secondsPerDay * day + seconds.toInt ∧
      Stamp.secondsPerDay * day + seconds.toInt ≤ Instant.latest) ↔
      Date.InCalendar (day + seconds.toInt / 86400) := by
    rw [Instant.earliest, Instant.latest, Stamp.secondsPerDay, Date.InCalendar]
    omega
  -- The date is moved by the full days, as far as the calendar goes.
  have moved := Date.addDays?_ofDays within (seconds.toInt / 86400)
  rw [carry?]
  cases made : Span.ofSeconds? (seconds - Int64.ofInt (seconds.toInt % Stamp.secondsPerDay)) with
  | none =>
    -- So many days would lead out of the calendar.
    have far := Span.ofSeconds?_eq_none_iff.mp made
    rw [carried, Span.longest] at far
    have outside : ¬ Date.InCalendar (day + seconds.toInt / 86400) := by
      unfold Date.InCalendar at within ⊢
      omega
    rw [Instant.make?_of_outside (mt reached.mp outside)]
    rfl
  -- A span that exists has as many full days as there are in the seconds.
  | some span =>
    have full : span.seconds.toInt / Stamp.secondsPerDay = seconds.toInt / 86400 := by
      rw [Span.ofSeconds?_eq_some_iff.mp made, carried, Stamp.secondsPerDay]
      omega
    simp only [Option.bind_eq_bind, Option.bind_some, full, moved]
    by_cases inside : Date.InCalendar (day + seconds.toInt / 86400)
    · rw [if_pos inside, Instant.map_clock_make? (reached.mpr inside) bounded, days, rest]
      rfl
    · rw [if_neg inside, Instant.make?_of_outside (mt reached.mp inside)]
      rfl

/-- What is added to the second of the day of an instant is added to the seconds since 1970. -/
theorem carry?_clock (t : Instant) {seconds : Int64} {added : Int} {nanos : Nat}
    (low : -Span.longest ≤ added) (high : added ≤ Span.longest + 1)
    (bounded : nanos < 2 * Instant.nanosPerSecond)
    (total : seconds.toInt = t.clock.second.toInt + added) :
    carry? t.clock.date seconds nanos =
      (Instant.make? (t.second + added) nanos).map Instant.clock := by
  -- The midnight of the day and the second in it make up the seconds since 1970.
  have sum : Stamp.secondsPerDay * (t.second / Stamp.secondsPerDay) + seconds.toInt =
      t.second + added := by
    rw [total, t.toInt_second_clock, ← Int.add_assoc, Int.mul_ediv_add_emod]
  rw [t.toInt_second_clock, Stamp.secondsPerDay] at total
  rw [← sum]
  exact carry?_ofDays t.day_inCalendar (by omega) (by omega) bounded

/-- A span of hours is added to the date and the time of the day as it is to the seconds since 1970.
-/
theorem add?_clock (t : Instant) {span : Span} {hours : Int}
    (length : span.seconds.toInt = 3600 * hours) :
    t.clock.add? span = (t.addHours? hours).map Instant.clock := by
  -- All the words stay in range, as the span and the day are bounded.
  have within := span.within
  have inDay := t.toInt_second_clock
  have bounded := t.bounded
  rw [Stamp.secondsPerDay] at inDay
  rw [Span.longest] at within
  -- The span moves as the hours do, forth or back or not at all.
  have moves : span.seconds ≠ 0 ↔ hours ≠ 0 := by
    rw [ne_eq, ← Int64.toInt_inj, length, Int64.toInt_zero]
    omega
  have back : span.seconds < 0 ↔ hours < 0 := by
    rw [Int64.lt_iff_toInt_lt, length, Int64.toInt_zero]
    omega
  have leaves : Instant.nanosPerSecond ≤ t.clock.nanos ∧ span.seconds ≠ 0 ↔
      t.isLeap = true ∧ hours ≠ 0 := by
    rw [moves, Instant.isLeap, decide_eq_true_iff]
    rfl
  -- Only a leap second that is left makes a difference to the sum.
  rw [add?, Instant.addHours?]
  by_cases leap : t.isLeap = true ∧ hours ≠ 0
  · rw [if_pos (leaves.mpr leap), if_pos leap, Int.add_assoc]
    -- The leap second that is left is one second less, in which the fraction goes on.
    have fewer : t.nanos - Instant.nanosPerSecond < 2 * Instant.nanosPerSecond :=
      Nat.lt_of_le_of_lt (Nat.sub_le _ _) bounded
    -- On the way back the day goes on from the second after the leap second.
    -- Otherwise both sums are taken alike.
    by_cases before : hours < 0
    · have start : (t.clock.second + 1).toInt = t.clock.second.toInt + 1 :=
        toInt_add_of_fits (by rw [Int64.toInt_one]; omega) (by rw [Int64.toInt_one]; omega)
      rw [if_pos (back.mpr before), if_pos before]
      refine carry?_clock t (by rw [Span.longest]; omega) (by rw [Span.longest]; omega) fewer ?_
      rw [toInt_add_of_fits (by omega) (by omega), start, length]
      omega
    · rw [if_neg (mt back.mp before), if_neg before, Int64.add_zero, Int.add_zero]
      refine carry?_clock t (by rw [Span.longest]; omega) (by rw [Span.longest]; omega) fewer ?_
      rw [toInt_add_of_fits (by omega) (by omega), length]
  · rw [if_neg (mt leaves.mp leap), if_neg leap]
    refine carry?_clock t (by rw [Span.longest]; omega) (by rw [Span.longest]; omega) bounded ?_
    rw [toInt_add_of_fits (by omega) (by omega), length]

/-- Hours are added to the date and the time of the day as they are to the seconds since 1970. -/
theorem addHours?_clock (t : Instant) (hours : Int64) :
    t.clock.addHours? hours = (t.addHours? hours.toInt).map Instant.clock := by
  -- Hours make a span first, and the span is added.
  rw [addHours?]
  cases made : Span.ofHours? hours with
  | none =>
    -- Without a span the hours lead out of the calendar from wherever they are counted.
    have far := Span.ofHours?_eq_none_iff.mp made
    have within := t.within
    rw [Span.longest] at far
    have missing : t.addHours? hours.toInt = none := by
      rw [Instant.addHours?, Instant.make?_of_outside, Instant.make?_of_outside, ite_self]
      · rw [Instant.earliest, Instant.latest] at within ⊢
        omega
      · rw [Instant.earliest, Instant.latest] at within ⊢
        split <;> omega
    rw [missing]
    rfl
  | some span => exact add?_clock t (Span.ofHours?_eq_some_iff.mp made)

end Clock

namespace Instant

/-- There is an instant at the beginning of every second that the calendar reaches. -/
theorem exists_ofSecond? {second : Int} (within : earliest ≤ second ∧ second ≤ latest) :
    ∃ t, ofSecond? second = some t ∧ t.second = second ∧ t.nanos = 0 :=
  ⟨⟨second, 0, within, by decide⟩, ofSecond?_eq_some_iff.mpr ⟨rfl, rfl⟩, rfl, rfl⟩

/-- A whole second that was shifted by some hours is shifted back by as many. -/
theorem addHours?_neg {t u : Instant} {hours : Int64} (whole : t.nanos = 0)
    (moved : t.addHours? hours.toInt = some u) : u.addHours? (-hours).toInt = some t := by
  -- Both shifts are sums of seconds, and the second one undoes the first.
  rw [addHours?_of_whole whole] at moved
  obtain ⟨second, still⟩ := ofSecond?_eq_some_iff.mp moved
  -- The hours fit into the calendar, so that they are not the one word without a negation.
  have fits : (-hours).toInt = -hours.toInt := by
    have first := t.within
    have last := u.within
    rw [earliest, latest] at first last
    rw [Int64.toInt_neg]
    exact Int.bmod_eq_of_le_mul_two (by omega) (by omega)
  rw [addHours?_of_whole still, ofSecond?_eq_some_iff, fits, second]
  exact ⟨by omega, whole⟩

/-- The instant at the beginning of a second is shifted by any word of hours to the instant that
lies 3600 seconds on for each of them, exactly where the calendar reaches it, and from there it is
shifted back. So it is by way of the date and the time of the day, where every number has to fit
into its word. -/
theorem addHours?_of_ofSecond {second : Int} {t : Instant} (made : ofSecond second = .ok t)
    (hours : Int64) :
    t.second = second ∧
    (-8334601228800 ≤ second + 3600 * hours.toInt ∧
        second + 3600 * hours.toInt ≤ 8210266876799 →
      ∃ u, t.addHours? hours.toInt = some u ∧ u.second = second + 3600 * hours.toInt ∧
        u.nanos = 0) ∧
    (¬ (-8334601228800 ≤ second + 3600 * hours.toInt ∧
        second + 3600 * hours.toInt ≤ 8210266876799) → t.addHours? hours.toInt = none) ∧
    (∀ u, t.addHours? hours.toInt = some u → u.addHours? (-hours).toInt = some t) ∧
    t.clock.epoch = second ∧
    t.clock.addHours? hours = (t.addHours? hours.toInt).map clock := by
  -- For a whole second every part is a statement on one sum of seconds.
  obtain ⟨rfl, whole⟩ := ofSecond_eq_ok_iff.mp made
  refine ⟨rfl, fun reached => ?_, fun outside => ?_, fun u moved => addHours?_neg whole moved,
    t.epoch_clock, Clock.addHours?_clock t hours⟩
  · rw [addHours?_of_whole whole]
    exact exists_ofSecond? reached
  · rw [addHours?_of_whole whole]
    exact make?_of_outside outside 0

/-- From the first second of the calendar its last hour is reached, and from there the first second
again. One hour more leads nowhere, and nor do the most hours that a word holds either way. -/
theorem addHours?_of_firstSecond :
    let first : Instant := ⟨-8334601228800, 0, by decide, by decide⟩
    let last : Instant := ⟨8210266873200, 0, by decide, by decide⟩
    ofSecond (-8334601228800) = .ok first ∧ first.addHours? 4595796695 = some last ∧
      last.addHours? (-4595796695) = some first ∧ first.addHours? 4595796696 = none ∧
      first.clock.addHours? Int64.maxValue = none ∧
      first.clock.addHours? Int64.minValue = none := by
  -- The general result is used for the four numbers of hours in turn.
  intro first last
  have made : ofSecond (-8334601228800) = .ok first := by rfl
  have moved : first.addHours? 4595796695 = some last := by rfl
  obtain ⟨_, _, _, back, _, _⟩ := addHours?_of_ofSecond made 4595796695
  obtain ⟨_, _, behind, _, _, _⟩ := addHours?_of_ofSecond made 4595796696
  obtain ⟨_, _, beyond, _, _, beyondWord⟩ := addHours?_of_ofSecond made Int64.maxValue
  obtain ⟨_, _, before, _, _, beforeWord⟩ := addHours?_of_ofSecond made Int64.minValue
  refine ⟨made, moved, back last moved, behind (by decide), ?_, ?_⟩
  · rw [beyondWord, beyond (by decide)]
    rfl
  · rw [beforeWord, before (by decide)]
    rfl

end Instant

end Warrant
