import Warrant.Proofs.Rule.Window
import Warrant.Time.Rfc3339

/-! Instants that are read from universal times: they have whole seconds, and the calendar began
long before them. -/

namespace Warrant

/-- A date of the common era lies at most 719835 days before 1970. -/
theorem Date.le_toDays {date : Date} (era : 0 ≤ date.year) : -719835 ≤ date.toDays := by
  -- January and February count for the year before, and no month starts before the first day.
  simp only [toDays, daysBeforeYear, daysBeforeMonth, epochDay]
  split <;> omega

/-- Four digits are no year before the common era. -/
theorem Stamp.year_of_readStrict? {text : List Char} {stamp : Stamp} {offset : Int}
    (read : readStrict? text = some (stamp, offset)) : 0 ≤ stamp.date.year := by
  -- The reader takes its parts off the text one by one.
  simp only [readStrict?, Option.bind_eq_bind, Option.bind_eq_some_iff] at read
  -- The year is the first of the parts, of which twelve others are read behind it.
  obtain ⟨⟨year, _⟩, _, read⟩ := read
  iterate 12 obtain ⟨_, _, read⟩ := read
  split at read
  · cases read
    exact Int.natCast_nonneg year
  · cases read

namespace Instant

/-- An instant is the one at the second and the nanoseconds of its fields, moved by the offset, and
the nanoseconds of a leap second come on top of those of the second before it. -/
theorem of_instant?_eq_some {stamp : Stamp} {offset : Int} {t : Instant}
    (made : stamp.instant? offset = some t) :
    offset.natAbs < Stamp.secondsPerDay ∧ t.second = stamp.toSecond - offset ∧
      t.nanos = stamp.nanos + if stamp.second = 60 then nanosPerSecond else 0 := by
  -- The offset is checked before the instant is made.
  unfold Stamp.instant? at made
  split at made
  · rename_i valid
    exact ⟨valid.2, of_make?_eq_some made⟩
  · cases made

/-- The fraction of a time that is read at any offset is cut off. -/
theorem nanos_of_read {text : String} {t : Instant} (read : Instant.read text = .ok t) :
    t.nanos = 0 := by
  -- Whatever is read is truncated at the end.
  rw [Instant.read] at read
  split at read
  · cases read
    rfl
  · cases read

/-- An instant that is read from a universal time has no part of a second, and more than an hour of
the calendar lies before it. -/
theorem of_readUniversal {text : String} {t : Instant} (read : readUniversal text = .ok t) :
    t.nanos = 0 ∧ earliest + 3600 ≤ t.second := by
  -- A text with another offset is turned down first.
  rw [readUniversal] at read
  split at read
  · refine ⟨nanos_of_read read, ?_⟩
    -- The fields are of a year that is not negative.
    rw [Instant.read] at read
    split at read
    · rename_i made
      obtain ⟨⟨stamp, offset⟩, fields, made⟩ := Option.bind_eq_some_iff.mp made
      cases read
      obtain ⟨near, second, _⟩ := of_instant?_eq_some made
      have days := Date.le_toDays (Stamp.year_of_readStrict? fields)
      simp only [truncate, second, Stamp.toSecond, Stamp.secondsPerDay, earliest] at near ⊢
      omega
    · cases read
  · cases read

end Instant

/-- A whole second that lies behind the first hour of the calendar is moved back by 3600 seconds. -/
theorem Window.second_shifted_neg_one {t : Instant} (whole : t.nanos = 0)
    (room : Instant.earliest + 3600 ≤ t.second) : (shifted t (-1)).second = t.second - 3600 := by
  -- The calendar reaches the second before it.
  have within : Instant.earliest ≤ t.second + 3600 * (-1) ∧
      t.second + 3600 * (-1) ≤ Instant.latest := by
    have before := t.within.2
    omega
  have moved : Instant.ofSecond? (t.second + 3600 * (-1)) =
      some ⟨t.second + 3600 * (-1), 0, within, Instant.zero_nanos_bounded⟩ :=
    Instant.ofSecond?_eq_some_iff.mpr ⟨rfl, rfl⟩
  rw [shifted, Instant.addHours?_of_whole whole, moved]
  rfl

end Warrant
