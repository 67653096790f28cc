import Warrant.Proofs.Time.Universal
import Warrant.Proofs.Time.Written
import Warrant.Rule.Compile
import Warrant.Time.Relaxed

/-! Instants are told apart by their seconds, however they were obtained, as long as no stored text
shows a part of a second: only the reader of stored texts keeps it. -/

namespace Warrant

namespace Instant

/-- The instants that can be obtained: from universal times and from times at any offset, from
counts of seconds, from stored documents of some kind, by cutting off what is not whole, and by
shifts of hours from any of these. -/
inductive Obtained (stored : Document → Prop) : Instant → Prop where
  /-- Read from a universal time. -/
  | universal {text : String} {t : Instant} (read : readUniversal text = .ok t) : Obtained stored t
  /-- Read from a time at any offset. -/
  | offset {text : String} {t : Instant} (read : Instant.read text = .ok t) : Obtained stored t
  /-- Counted from the start of 1970. -/
  | counted {second : Int} {t : Instant} (made : ofSecond second = .ok t) : Obtained stored t
  /-- Read from a stored document. -/
  | stored {document : Document} {t : Instant} (kind : stored document)
      (read : ofDocument? document = some t) : Obtained stored t
  /-- Cut off from any instant. -/
  | truncated (t : Instant) : Obtained stored t.truncate
  /-- Shifted by hours from an instant that was obtained. -/
  | shifted {hours : Int} {t u : Instant} (first : Obtained stored t)
      (moved : t.addHours? hours = some u) : Obtained stored u

/-- The text of a document shows a part of a second: a fraction that does not begin with nine zeros,
or a leap second. -/
def ShowsPart (document : Document) : Prop :=
  ∃ text stamp offset, document.text? = some text ∧
    Stamp.readRelaxed? text.toList = some (stamp, offset) ∧ (stamp.nanos ≠ 0 ∨ stamp.second = 60)

/-- An instant has whole seconds when its fields have neither a fraction nor a leap second. -/
theorem nanos_of_instant? {stamp : Stamp} {offset : Int} {t : Instant}
    (made : stamp.instant? offset = some t) :
    t.nanos = 0 ↔ stamp.nanos = 0 ∧ stamp.second ≠ 60 := by
  -- A leap second counts as a second and a full fraction more.
  rw [(of_instant?_eq_some made).2.2]
  by_cases leap : stamp.second = 60
  · simp [leap, nanosPerSecond]
  · simp [leap]

/-- An instant that is read from a document has whole seconds unless the text shows a part of one.
-/
theorem nanos_of_ofDocument? {document : Document} {t : Instant}
    (read : ofDocument? document = some t) : t.nanos = 0 ↔ ¬ ShowsPart document := by
  -- What was read is made from the fields that the text of the document shows.
  obtain ⟨text, shown, read⟩ := Option.bind_eq_some_iff.mp read
  obtain ⟨⟨stamp, offset⟩, fields, made⟩ := Option.bind_eq_some_iff.mp read
  rw [nanos_of_instant? made]
  constructor
  · -- The text of the document is read in one way only.
    rintro ⟨noFraction, noLeap⟩ ⟨text', stamp', offset', shown', fields', part⟩
    cases shown.symm.trans shown'
    cases fields.symm.trans fields'
    exact part.elim (fun fraction => fraction noFraction) noLeap
  · intro hidden
    by_contra part
    rw [not_and_or, not_ne_iff] at part
    exact hidden ⟨text, stamp, offset, shown, fields, part⟩

/-- A whole second is shifted to a whole second. -/
theorem nanos_of_addHours? {t u : Instant} {hours : Int} (whole : t.nanos = 0)
    (moved : t.addHours? hours = some u) : u.nanos = 0 := by
  rw [addHours?_of_whole whole] at moved
  exact (ofSecond?_eq_some_iff.mp moved).2

/-- Every instant that is obtained has whole seconds, if no stored text shows a part of one. -/
theorem Obtained.nanos_eq_zero {stored : Document → Prop}
    (hidden : ∀ document t, stored document → ofDocument? document = some t → ¬ ShowsPart document)
    {t : Instant} (obtained : t.Obtained stored) : t.nanos = 0 := by
  -- By induction on the shifts: each way of reading gives a whole second, and a shift keeps it.
  induction obtained with
  | universal read => exact (of_readUniversal read).1
  | offset read => exact nanos_of_read read
  | counted made => exact (ofSecond_eq_ok_iff.mp made).2
  | stored kind read => exact (nanos_of_ofDocument? read).mpr (hidden _ _ kind read)
  | truncated t => rfl
  | shifted _ moved whole => exact nanos_of_addHours? whole moved

/-- Whole seconds are the same instant when they are the same second. -/
theorem eq_iff_second_eq {t u : Instant} (wholeT : t.nanos = 0) (wholeU : u.nanos = 0) :
    t = u ↔ t.second = u.second := by
  rw [Instant.mk.injEq, wholeT, wholeU, and_iff_left rfl]

/-- Whole seconds come in the order of the seconds. -/
theorem lt_iff_second_lt {t u : Instant} (wholeT : t.nanos = 0) (wholeU : u.nanos = 0) :
    t < u ↔ t.second < u.second := by
  -- Instants are ordered by their seconds first, and the fractions are both nought.
  show t.second < u.second ∨ t.second = u.second ∧ t.nanos < u.nanos ↔ t.second < u.second
  rw [wholeT, wholeU]
  simp

end Instant

/-- Both bounds of a window were obtained. -/
def Window.Obtained (stored : Document → Prop) (window : Window) : Prop :=
  window.start.Obtained stored ∧ window.finish.Obtained stored

/-- The predicate of a window shows the seconds of its bounds, and nothing else. -/
theorem Window.predicate_eq_iff {v w : Window} : v.predicate = w.predicate ↔
    v.start.second = w.start.second ∧ v.finish.second = w.finish.second := by
  -- Different numbers are written as different texts.
  have shown {m n : Int} :
      String.ofList (Text.integer m) = String.ofList (Text.integer n) ↔ m = n := by
    rw [String.ofList_inj]
    exact ⟨Text.integer_injective, congrArg Text.integer⟩
  simp [predicate, Predicate.compareWithRequest, shown]

namespace Instant

/-- Instants that were obtained are the same when their seconds are, and come in the order of their
seconds, exactly as long as no stored text that is read shows a part of a second; and so do windows
with such bounds stand for different predicates. -/
theorem told_apart_iff_hidden (stored : Document → Prop) :
    ((∀ t u : Instant, t.Obtained stored → u.Obtained stored →
        (t = u ↔ t.second = u.second) ∧ (t < u ↔ t.second < u.second)) ↔
      ∀ document t, stored document → ofDocument? document = some t → ¬ ShowsPart document) ∧
    ((∀ v w : Window, v.Obtained stored → w.Obtained stored →
        (v.predicate = w.predicate ↔ v = w)) ↔
      ∀ document t, stored document → ofDocument? document = some t → ¬ ShowsPart document) := by
  -- One stored text with a part of a second is enough to tell an instant from its truncation.
  refine ⟨⟨fun apart document t kind read => ?_, fun hidden t u obtainedT obtainedU => ?_⟩,
    ⟨fun apart document t kind read => ?_, fun hidden v w obtainedV obtainedW => ?_⟩⟩
  · -- An instant that was read is that of its second only.
    have same := (apart t t.truncate (.stored kind read) (.truncated t)).1.mpr rfl
    exact (nanos_of_ofDocument? read).mp (congrArg Instant.nanos same)
  · -- With nothing hidden, all that was obtained is a whole second.
    have wholeT := obtainedT.nanos_eq_zero hidden
    have wholeU := obtainedU.nanos_eq_zero hidden
    exact ⟨eq_iff_second_eq wholeT wholeU, lt_iff_second_lt wholeT wholeU⟩
  · -- The window at the instant and the one at its truncation show the same seconds.
    have obtained : t.Obtained stored := .stored kind read
    have cut : t.truncate.Obtained stored := .truncated t
    have same := (apart ⟨t, t⟩ ⟨t.truncate, t.truncate⟩ ⟨obtained, obtained⟩ ⟨cut, cut⟩).mp
      (Window.predicate_eq_iff.mpr ⟨rfl, rfl⟩)
    exact (nanos_of_ofDocument? read).mp (congrArg (nanos ∘ Window.start) same)
  · -- Windows of whole seconds are told apart bound by bound.
    have start := eq_iff_second_eq (obtainedV.1.nanos_eq_zero hidden)
      (obtainedW.1.nanos_eq_zero hidden)
    have finish := eq_iff_second_eq (obtainedV.2.nanos_eq_zero hidden)
      (obtainedW.2.nanos_eq_zero hidden)
    rw [Window.predicate_eq_iff, Window.mk.injEq, start, finish]

/-- The noon of a day. -/
def noon : Instant :=
  ⟨1768478400, 0, by decide, zero_nanos_bounded⟩

/-- The document in which noon is stored. -/
def storedNoon : Document :=
  .string (some "2026-01-15T12:00:00Z")

/-- With a stored document that shows no part of a second, noon and the hour after it are told apart
by their seconds, and so are the windows from either of them. -/
theorem told_apart_noon :
    let later : Instant := ⟨1768482000, 0, by decide, by decide⟩
    ofDocument? storedNoon = some noon ∧ noon.addHours? 1 = some later ∧
      (noon = later ↔ noon.second = later.second) ∧
      (noon < later ↔ noon.second < later.second) ∧
      (Window.predicate ⟨noon, later⟩ = Window.predicate ⟨later, later⟩ ↔
        (⟨noon, later⟩ : Window) = ⟨later, later⟩) := by
  intro later
  -- The hour later is obtained from the stored noon by a shift.
  have reading : ofDocument? storedNoon = some noon := by decide +kernel
  have moved : noon.addHours? 1 = some later := by rfl
  -- The only document in store is the one at hand.
  have hidden : ∀ document t, document = storedNoon → ofDocument? document = some t →
      ¬ ShowsPart document := by
    rintro _ _ rfl _
    exact (nanos_of_ofDocument? reading).mp rfl
  obtain ⟨instants, windows⟩ := told_apart_iff_hidden (· = storedNoon)
  have here : noon.Obtained (· = storedNoon) := .stored rfl reading
  have there : later.Obtained (· = storedNoon) := .shifted here moved
  obtain ⟨same, before⟩ := instants.mpr hidden noon later here there
  exact ⟨reading, moved, same, before, windows.mpr hidden _ _ ⟨here, there⟩ ⟨there, there⟩⟩

/-- Noon and the half of a second after it, when they are stored, are two instants of one second.
Windows that differ in that alone stand for the same predicate. -/
theorem fraction_kept :
    let half : Instant := ⟨1768478400, 500000000, by decide, by decide⟩
    ofDocument? (.string (some "2026-01-15T12:00:00.5Z")) = some half ∧
      ofDocument? storedNoon = some noon ∧ half.second = noon.second ∧ half ≠ noon ∧
      noon < half ∧ (⟨half, half⟩ : Window) ≠ ⟨noon, noon⟩ ∧
      Window.predicate ⟨half, half⟩ = Window.predicate ⟨noon, noon⟩ := by
  intro half
  exact ⟨by decide +kernel, by decide +kernel, rfl, by decide, by decide, by decide, by decide⟩

end Instant

end Warrant
