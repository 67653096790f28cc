import Warrant.Rule.Window

/-! Windows that are edited bound by bound are never inverted, up to both ends of the calendar. -/

namespace Warrant

namespace Instant

/-- The calendar does not end before it begins. -/
theorem earliest_le_latest : earliest ≤ latest := by
  decide

/-- A second is not over when it begins. -/
theorem zero_nanos_bounded : 0 < 2 * nanosPerSecond := by
  decide

/-- Every instant is at most itself. -/
theorem le_refl (t : Instant) : t ≤ t :=
  .inr ⟨rfl, Nat.le_refl _⟩

/-- An instant that comes before another is at most it. -/
theorem le_of_lt {a b : Instant} (before : a < b) : a ≤ b :=
  before.imp_right fun ⟨same, less⟩ => ⟨same, Nat.le_of_lt less⟩

/-- An instant that was made is at the second and has the nanoseconds for which it was made. -/
theorem of_make?_eq_some {second : Int} {nanos : Nat} {t : Instant}
    (made : make? second nanos = some t) : t.second = second ∧ t.nanos = nanos := by
  -- The checks of the constructor leave the fields alone.
  unfold make? at made
  split at made
  · split at made
    · cases made
      exact ⟨rfl, rfl⟩
    · cases made
  · cases made

/-- An instant comes before the one that lies some hours after it. -/
theorem lt_of_addHours?_pos {t later : Instant} {hours : Int} (forward : 0 < hours)
    (moved : t.addHours? hours = some later) : t < later := by
  -- A leap second is left behind with its nanoseconds, but whole seconds are gained.
  left
  unfold addHours? at moved
  split at moved
  · have second := (of_make?_eq_some moved).1
    split at second <;> omega
  · have second := (of_make?_eq_some moved).1
    omega

/-- An instant comes after the one that lies some hours before it. -/
theorem lt_of_addHours?_neg {t earlier : Instant} {hours : Int} (back : hours < 0)
    (moved : t.addHours? hours = some earlier) : earlier < t := by
  -- The second by which a leap second counts for the next one is less than an hour.
  left
  unfold addHours? at moved
  split at moved
  · have second := (of_make?_eq_some moved).1
    omega
  · have second := (of_make?_eq_some moved).1
    omega

end Instant

namespace Window

/-- The instant one hour on lies at or behind an instant, also where the calendar ends. -/
theorem le_shifted_one (t : Instant) : t ≤ shifted t 1 := by
  -- Where the calendar has no such hour the instant itself is taken.
  rw [shifted]
  cases moved : t.addHours? 1 with
  | none => exact t.le_refl
  | some later => exact Instant.le_of_lt (Instant.lt_of_addHours?_pos (by decide) moved)

/-- The instant one hour back lies at or before an instant, also where the calendar begins. -/
theorem shifted_neg_one_le (t : Instant) : shifted t (-1) ≤ t := by
  -- Before the first hour of the calendar the instant itself is taken.
  rw [shifted]
  cases moved : t.addHours? (-1) with
  | none => exact t.le_refl
  | some earlier => exact Instant.le_of_lt (Instant.lt_of_addHours?_neg (by decide) moved)

/-- A shifted instant is the one that the calendar gives, or stays where the calendar gives none. -/
theorem shifted_cases (t : Instant) (hours : Int) :
    t.addHours? hours = some (shifted t hours) ∨
      t.addHours? hours = none ∧ shifted t hours = t := by
  -- The default is used exactly when the calendar gives nothing.
  rw [shifted]
  cases t.addHours? hours with
  | none => exact .inr ⟨rfl, rfl⟩
  | some moved => exact .inl rfl

/-- An edit of a window: one of its bounds is moved. -/
inductive Edit where
  | start (bound : Instant)
  | finish (bound : Instant)

/-- The window after an edit. -/
def Edit.apply (window : Window) : Edit → Window
  | .start bound => window.setStart bound
  | .finish bound => window.setFinish bound

/-- What edits make, one after the other, of the hour that starts at an instant. -/
def edited (start : Instant) (edits : List Edit) : Window :=
  edits.foldl Edit.apply (startingAt start)

/-- The hour that starts at an instant is not inverted. -/
theorem start_le_finish_startingAt (start : Instant) :
    (startingAt start).start ≤ (startingAt start).finish :=
  le_shifted_one start

/-- No edit inverts a window. -/
theorem start_le_finish_apply (window : Window) (edit : Edit) :
    (edit.apply window).start ≤ (edit.apply window).finish := by
  -- The other bound stays only if it is on the right side, and it is dragged to that side else.
  cases edit with
  | start bound =>
    simp only [Edit.apply, setStart]
    split
    · exact le_shifted_one bound
    · rename_i inside
      exact Instant.not_lt.mp inside
  | finish bound =>
    simp only [Edit.apply, setFinish]
    split
    · exact shifted_neg_one_le bound
    · rename_i inside
      exact Instant.not_lt.mp inside

/-- No window that comes of edits is inverted. -/
theorem start_le_finish_edited (start : Instant) (edits : List Edit) :
    (edited start edits).start ≤ (edited start edits).finish := by
  -- Whatever window there is before an edit, the one after it is not inverted.
  have kept : ∀ window : Window, window.start ≤ window.finish →
      (edits.foldl Edit.apply window).start ≤ (edits.foldl Edit.apply window).finish := by
    induction edits with
    | nil => exact fun _ ordered => ordered
    | cons edit rest ih => exact fun window _ => ih _ (start_le_finish_apply window edit)
  exact kept _ (start_le_finish_startingAt start)

/-- The finish stays when the start is moved, unless the start passes it. Then it lies one hour
behind the start, or at the start where the calendar ends. -/
theorem finish_setStart (window : Window) (bound : Instant) :
    (bound ≤ window.finish → (window.setStart bound).finish = window.finish) ∧
    (window.finish < bound → (window.setStart bound).finish = shifted bound 1) :=
  ⟨fun inside => if_neg (Instant.not_lt.mpr inside), fun passed => if_pos passed⟩

/-- The start stays when the finish is moved, unless the finish passes it. Then it lies one hour
before the finish, or at the finish where the calendar begins. -/
theorem start_setFinish (window : Window) (bound : Instant) :
    (window.start ≤ bound → (window.setFinish bound).start = window.start) ∧
    (bound < window.start → (window.setFinish bound).start = shifted bound (-1)) :=
  ⟨fun inside => if_neg (Instant.not_lt.mpr inside), fun passed => if_pos passed⟩

/-- Two bounds in their order make up the window, whichever of them is moved first. -/
theorem setFinish_setStart_comm (window : Window) {start finish : Instant}
    (ordered : start ≤ finish) :
    (window.setStart start).setFinish finish = ⟨start, finish⟩ ∧
      (window.setFinish finish).setStart start = ⟨start, finish⟩ := by
  -- The bound that is moved last does not pass the other, wherever that was dragged from.
  have inside : ¬ finish < start := Instant.not_lt.mpr ordered
  exact ⟨by simp [setStart, setFinish, inside], by simp [setStart, setFinish, inside]⟩

/-- A window that comes of any edits is not inverted. Each further edit sets the bound that it
moves, and keeps the other one unless it is passed; then that one is dragged to one hour beyond the
moved bound, or to the moved bound where the calendar has no such hour. Two bounds in their order
are set in either order. -/
theorem edited_ordered (start : Instant) (edits : List Edit) :
    let window := edited start edits
    window.start ≤ window.finish ∧
    (∀ bound, (window.setStart bound).start = bound ∧
      (bound ≤ window.finish → (window.setStart bound).finish = window.finish) ∧
      (window.finish < bound →
        bound.addHours? 1 = some (window.setStart bound).finish ∨
          bound.addHours? 1 = none ∧ (window.setStart bound).finish = bound)) ∧
    (∀ bound, (window.setFinish bound).finish = bound ∧
      (window.start ≤ bound → (window.setFinish bound).start = window.start) ∧
      (bound < window.start →
        bound.addHours? (-1) = some (window.setFinish bound).start ∨
          bound.addHours? (-1) = none ∧ (window.setFinish bound).start = bound)) ∧
    ∀ x y, x ≤ y → (window.setStart x).setFinish y = ⟨x, y⟩ ∧
      (window.setFinish y).setStart x = ⟨x, y⟩ := by
  -- The order holds by induction on the edits, and the rest of any window whatsoever.
  intro window
  refine ⟨start_le_finish_edited start edits, fun bound => ⟨rfl, ?_⟩, fun bound => ⟨rfl, ?_⟩,
    fun _ _ ordered => setFinish_setStart_comm window ordered⟩
  · obtain ⟨stays, dragged⟩ := finish_setStart window bound
    refine ⟨stays, fun passed => ?_⟩
    rw [dragged passed]
    exact shifted_cases bound 1
  · obtain ⟨stays, dragged⟩ := start_setFinish window bound
    refine ⟨stays, fun passed => ?_⟩
    rw [dragged passed]
    exact shifted_cases bound (-1)

/-- The last instant of the calendar without a leap second. -/
def lastInstant : Instant :=
  ⟨Instant.latest, 999999999, ⟨Instant.earliest_le_latest, Int.le_refl _⟩, by decide⟩

/-- The first instant of the calendar. -/
def firstInstant : Instant :=
  ⟨Instant.earliest, 0, ⟨Int.le_refl _, Instant.earliest_le_latest⟩, Instant.zero_nanos_bounded⟩

/-- At the ends of the calendar a window can be as short as an instant, but it is not inverted, and
all of the calendar is set in either order. -/
theorem edited_ordered_whole :
    edited firstInstant [.finish lastInstant, .start lastInstant, .finish firstInstant] =
        ⟨firstInstant, firstInstant⟩ ∧
      firstInstant ≤ lastInstant ∧
      ((edited lastInstant [.finish firstInstant]).setStart firstInstant).setFinish lastInstant =
        ⟨firstInstant, lastInstant⟩ :=
  have ordered : firstInstant ≤ lastInstant := by decide
  ⟨by decide, ordered, ((edited_ordered lastInstant _).2.2.2 _ _ ordered).1⟩

end Window

end Warrant
