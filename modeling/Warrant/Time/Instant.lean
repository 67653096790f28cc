import Warrant.Time.Calendar

/-! Instants of universal time, and how far they can be shifted. -/

namespace Warrant

namespace Instant

/-- The first second of the first year, −262143. -/
def earliest : Int := -8334601228800

/-- The last second of the last year, 262142. -/
def latest : Int := 8210266876799

/-- The nanoseconds of one second. -/
def nanosPerSecond : Nat := 1000000000

end Instant

/-- A second counted from the start of 1970, and the nanoseconds since it began. They go on beyond
one second in a leap second, which is counted with the second before it. -/
structure Instant where
  second : Int
  nanos : Nat
  within : Instant.earliest ≤ second ∧ second ≤ Instant.latest
  bounded : nanos < 2 * Instant.nanosPerSecond
deriving DecidableEq

namespace Instant

/-- Instants are ordered by their seconds, and within a second by their nanoseconds. -/
instance : LT Instant where
  lt a b := a.second < b.second ∨ a.second = b.second ∧ a.nanos < b.nanos

/-- An instant is at most another when it comes before it or is the same. -/
instance : LE Instant where
  le a b := a.second < b.second ∨ a.second = b.second ∧ a.nanos ≤ b.nanos

instance (a b : Instant) : Decidable (a < b) :=
  inferInstanceAs (Decidable (a.second < b.second ∨ a.second = b.second ∧ a.nanos < b.nanos))

instance (a b : Instant) : Decidable (a ≤ b) :=
  inferInstanceAs (Decidable (a.second < b.second ∨ a.second = b.second ∧ a.nanos ≤ b.nanos))

/-- The order of two instants. -/
def compare (a b : Instant) : Ordering :=
  if a < b then .lt else if a = b then .eq else .gt

/-- The instant at a second and its nanoseconds, if the calendar reaches it. -/
def make? (second : Int) (nanos : Nat) : Option Instant :=
  if within : earliest ≤ second ∧ second ≤ latest then
    if bounded : nanos < 2 * nanosPerSecond then some ⟨second, nanos, within, bounded⟩ else none
  else none

/-- The instant at the beginning of a second. -/
def ofSecond? (second : Int) : Option Instant :=
  make? second 0

/-- The instant without its nanoseconds. -/
def truncate (t : Instant) : Instant :=
  ⟨t.second, 0, t.within, by decide⟩

/-- Whether the nanoseconds lie in a leap second. -/
def isLeap (t : Instant) : Bool :=
  nanosPerSecond ≤ t.nanos

/-- The instant a number of hours later, or earlier for a negative number, if the calendar reaches
it. A shift out of a leap second counts from the second before it when it goes forward, and from the
second after it when it goes back. -/
def addHours? (t : Instant) (hours : Int) : Option Instant :=
  if t.isLeap ∧ hours ≠ 0 then
    make? (t.second + 3600 * hours + (if hours < 0 then 1 else 0)) (t.nanos - nanosPerSecond)
  else make? (t.second + 3600 * hours) t.nanos

/-- An instant is not before another exactly when the other is at most it. -/
theorem not_lt {a b : Instant} : ¬ a < b ↔ b ≤ a := by
  -- The order is lexicographic on integers.
  change ¬ (a.second < b.second ∨ a.second = b.second ∧ a.nanos < b.nanos) ↔
    b.second < a.second ∨ b.second = a.second ∧ b.nanos ≤ a.nanos
  omega

/-- Seconds of the calendar begin with an instant. -/
theorem ofSecond?_eq_some_iff {second : Int} {t : Instant} :
    ofSecond? second = some t ↔ t.second = second ∧ t.nanos = 0 := by
  -- The checks of the constructor are the fields of the instant.
  constructor
  · intro made
    unfold ofSecond? make? at made
    split at made
    · simp only [show (0 : Nat) < 2 * nanosPerSecond by decide, dite_true,
        Option.some.injEq] at made
      subst made
      exact ⟨rfl, rfl⟩
    · simp at made
  · obtain ⟨second', nanos, within, bounded⟩ := t
    rintro ⟨rfl, rfl⟩
    simp [ofSecond?, make?, within, bounded]

/-- No instant is made where the calendar does not reach. -/
theorem make?_of_outside {second : Int} (outside : ¬ (earliest ≤ second ∧ second ≤ latest))
    (nanos : Nat) : make? second nanos = none :=
  dif_neg outside

/-- A whole second is no leap second, and is shifted to a whole second. -/
theorem addHours?_of_whole {t : Instant} (whole : t.nanos = 0) (hours : Int) :
    t.addHours? hours = ofSecond? (t.second + 3600 * hours) := by
  -- The shift only asks for the fraction, which a whole second does not have.
  have single : ¬ (t.isLeap = true ∧ hours ≠ 0) := by
    simp [isLeap, whole, nanosPerSecond]
  rw [addHours?, if_neg single, whole]
  rfl

end Instant

end Warrant
