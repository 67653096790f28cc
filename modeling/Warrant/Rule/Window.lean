import Warrant.Time.Instant

/-! Windows of time, and edits that never leave one inverted. -/

namespace Warrant

/-- The time between two instants, both of which belong to it. -/
structure Window where
  start : Instant
  finish : Instant
deriving DecidableEq

namespace Window

/-- An instant moved by a number of hours, or kept where the calendar ends before that. -/
def shifted (t : Instant) (hours : Int) : Instant :=
  (t.addHours? hours).getD t

/-- The hour that starts at an instant. -/
def startingAt (start : Instant) : Window :=
  ⟨start, shifted start 1⟩

/-- Moves the start. An end that it passes follows it at one hour. -/
def setStart (window : Window) (start : Instant) : Window :=
  ⟨start, if window.finish < start then shifted start 1 else window.finish⟩

/-- Moves the end. A start that it passes goes back to one hour before it. -/
def setFinish (window : Window) (finish : Instant) : Window :=
  ⟨if finish < window.start then shifted finish (-1) else window.start, finish⟩

end Window

end Warrant
