import Mathlib.Data.List.Nodup
import Warrant.Rule.Book

/-! The rules in a book are told by the history of its changes: which of them stand in it, and in
which order. -/

namespace Warrant

/-- What happens to the rules of a book: one is entered, the one under an identifier is taken out,
or all of them are. -/
inductive Event where
  | entered (rule : Rule)
  | taken (id : RuleId)
  | cleared

namespace Event

/-- The event enters a rule under an identifier. -/
def Enters (id : RuleId) : Event → Prop
  | .entered rule => rule.id = id
  | _ => False

/-- The event leaves nothing under an identifier. -/
def Ends (id : RuleId) : Event → Prop
  | .entered _ => False
  | .taken other => other = id
  | .cleared => True

/-- No event enters an identifier and ends it. -/
theorem not_ends_of_enters {event : Event} {id : RuleId} (enters : event.Enters id) :
    ¬ event.Ends id := by
  -- Only an entry enters anything, and it ends nothing.
  cases event with
  | entered rule => exact fun ends => ends
  | taken other => exact enters.elim
  | cleared => exact enters.elim

/-- The book after an event. -/
def apply (book : Book) : Event → Book
  | .entered rule => book.enter rule
  | .taken id => book.erase id
  | .cleared => .empty

end Event

/-- A rule was entered, and nothing was entered or taken out under its identifier since. -/
def Stands (events : List Event) (rule : Rule) : Prop :=
  ∃ before after, events = before ++ .entered rule :: after ∧
    ∀ event ∈ after, ¬ event.Enters rule.id ∧ ¬ event.Ends rule.id

/-- The event at a position was the first to enter an identifier since that was last taken out. -/
structure EnteredAt (events : List Event) (id : RuleId) (position : Nat) : Prop where
  enters : ∃ event, events[position]? = some event ∧ event.Enters id
  stays : ∀ later event, position < later → events[later]? = some event → ¬ event.Ends id
  first : ∀ earlier event, earlier < position → events[earlier]? = some event → event.Enters id →
    ∃ between ending, earlier < between ∧ between < position ∧
      events[between]? = some ending ∧ ending.Ends id

/-- Every entry under an identifier was ended by a later event. -/
def Gone (events : List Event) (id : RuleId) : Prop :=
  ∀ (position : Nat) (event : Event), events[position]? = some event → event.Enters id →
    ∃ (later : Nat) (ending : Event), position < later ∧
      events[later]? = some ending ∧ ending.Ends id

/-- An event in a longer history is an earlier one or the last. -/
theorem getElem?_concat_eq_some_iff {events : List Event} {last event : Event} {position : Nat} :
    (events ++ [last])[position]? = some event ↔
      events[position]? = some event ∨ position = events.length ∧ last = event := by
  -- The position lies inside the earlier history, right behind it, or beyond the last event.
  rcases Nat.lt_trichotomy position events.length with inside | behind | beyond
  · rw [List.getElem?_append_left inside]
    simp [Nat.ne_of_lt inside]
  · subst behind
    simp
  · rw [List.getElem?_append_right (Nat.le_of_lt beyond),
      List.getElem?_eq_none (Nat.le_of_lt beyond)]
    have outside : 1 ≤ position - events.length := by omega
    simp [Nat.ne_of_gt beyond, List.getElem?_eq_none (l := [last]) outside]

/-- A rule stands after an event that enters it, or stood before one that leaves it alone. -/
theorem stands_concat_iff {events : List Event} {last : Event} {rule : Rule} :
    Stands (events ++ [last]) rule ↔ last = .entered rule ∨
      Stands events rule ∧ ¬ last.Enters rule.id ∧ ¬ last.Ends rule.id := by
  -- By looking at the last event, which the entry either is or comes before.
  constructor
  · rintro ⟨before, after, whole, silent⟩
    -- The entry is the last event, or the last event is one of those behind it.
    rcases List.eq_nil_or_concat after with rfl | ⟨after, event, rfl⟩
    · exact .inl (List.cons.inj (List.append_inj' whole rfl).2).1
    · rw [List.concat_eq_append, ← List.cons_append, ← List.append_assoc] at whole
      obtain ⟨earlier, same⟩ := List.append_inj' whole rfl
      rw [List.cons.injEq] at same
      rw [same.1]
      refine .inr ⟨⟨before, after, earlier, fun other inside => silent other ?_⟩, silent event ?_⟩
      · simp [inside]
      · simp
  · -- In the other direction the history is extended by the last event.
    rintro (rfl | ⟨⟨before, after, rfl, silent⟩, quiet⟩)
    · exact ⟨events, [], rfl, by simp⟩
    · refine ⟨before, after ++ [last], by simp, fun event inside => ?_⟩
      rcases List.mem_append.mp inside with earlier | same
      · exact silent event earlier
      · rw [List.mem_singleton.mp same]
        exact quiet

namespace EnteredAt

variable {events : List Event} {last : Event} {id : RuleId} {position : Nat}

/-- The position of an entry lies inside the history. -/
theorem lt_length (entry : EnteredAt events id position) : position < events.length := by
  obtain ⟨event, there, _⟩ := entry.enters
  exact (List.getElem?_eq_some_iff.mp there).1

/-- No entry comes before another of the same identifier: it would have ended in between. -/
theorem not_lt {other : Nat} (entry : EnteredAt events id position)
    (later : EnteredAt events id other) : ¬ position < other := by
  -- The later entry demands an ending in between, which the earlier one excludes.
  intro before
  obtain ⟨event, there, enters⟩ := entry.enters
  obtain ⟨between, ending, behind, _, found, ends⟩ := later.first position event before there enters
  exact entry.stays between ending behind found ends

/-- An identifier has one entry only. -/
theorem unique {other : Nat} (entry : EnteredAt events id position)
    (again : EnteredAt events id other) : position = other :=
  Nat.le_antisymm (Nat.not_lt.mp (again.not_lt entry)) (Nat.not_lt.mp (entry.not_lt again))

/-- An identifier keeps its entry until it is taken out. -/
theorem concat (entry : EnteredAt events id position) (quiet : ¬ last.Ends id) :
    EnteredAt (events ++ [last]) id position where
  -- The last event lies behind the entry, and it is quiet.
  enters := by
    obtain ⟨event, there, enters⟩ := entry.enters
    exact ⟨event, getElem?_concat_eq_some_iff.mpr (.inl there), enters⟩
  stays later event behind there := by
    rcases getElem?_concat_eq_some_iff.mp there with earlier | ⟨_, same⟩
    · exact entry.stays later event behind earlier
    · exact same ▸ quiet
  first earlier event before there enters := by
    rw [List.getElem?_append_left (Nat.lt_trans before entry.lt_length)] at there
    obtain ⟨between, ending, behind, ahead, found, ends⟩ :=
      entry.first earlier event before there enters
    exact ⟨between, ending, behind, ahead, getElem?_concat_eq_some_iff.mpr (.inl found), ends⟩

/-- After a quiet event the entry of an identifier is the one that it had before. -/
theorem of_concat {old : Nat} (entry : EnteredAt (events ++ [last]) id position)
    (before : EnteredAt events id old) (quiet : ¬ last.Ends id) : EnteredAt events id position :=
  entry.unique (before.concat quiet) ▸ before

end EnteredAt

namespace Gone

variable {events : List Event} {last : Event} {id : RuleId}

/-- An identifier stays away until it is entered. -/
theorem concat (gone : Gone events id) (quiet : ¬ last.Enters id) : Gone (events ++ [last]) id := by
  -- The last event enters nothing that would have to be ended.
  intro position event there enters
  rcases getElem?_concat_eq_some_iff.mp there with inside | ⟨_, rfl⟩
  · obtain ⟨later, ending, behind, found, ends⟩ := gone position event inside enters
    exact ⟨later, ending, behind, getElem?_concat_eq_some_iff.mpr (.inl found), ends⟩
  · exact absurd enters quiet

/-- An identifier is gone when the last event ends it. -/
theorem of_ends (ends : last.Ends id) : Gone (events ++ [last]) id := by
  -- The last event ends every entry before it.
  intro position event there enters
  rcases getElem?_concat_eq_some_iff.mp there with inside | ⟨_, rfl⟩
  · exact ⟨events.length, last, (List.getElem?_eq_some_iff.mp inside).1,
      getElem?_concat_eq_some_iff.mpr (.inr ⟨rfl, rfl⟩), ends⟩
  · exact absurd ends (Event.not_ends_of_enters enters)

/-- An identifier that was gone is entered by the last event. -/
theorem enteredAt_concat (gone : Gone events id) (enters : last.Enters id) :
    EnteredAt (events ++ [last]) id events.length where
  enters := ⟨last, getElem?_concat_eq_some_iff.mpr (.inr ⟨rfl, rfl⟩), enters⟩
  stays later event behind there := by
    -- Nothing comes behind the last event.
    have inside := (List.getElem?_eq_some_iff.mp there).1
    rw [List.length_append, List.length_singleton] at inside
    omega
  first earlier event before there enters := by
    rw [List.getElem?_append_left before] at there
    obtain ⟨later, ending, behind, found, ends⟩ := gone earlier event there enters
    exact ⟨later, ending, behind, (List.getElem?_eq_some_iff.mp found).1,
      getElem?_concat_eq_some_iff.mpr (.inl found), ends⟩

end Gone

namespace Book

/-- A rule is found under its own identifier, and all rules are found. -/
theorem get?_eq_some_iff {book : Book} {id : RuleId} {rule : Rule} :
    book.get? id = some rule ↔ rule ∈ book.rules ∧ rule.id = id := by
  -- No two rules of a book have one identifier, which makes the search find the rule itself.
  constructor
  · intro found
    exact ⟨List.mem_of_find?_eq_some found, id_of_get?_eq_some found⟩
  · rintro ⟨inside, rfl⟩
    -- Whatever the search stops at has the identifier of the rule, which no other rule has.
    cases found : book.get? rule.id with
    | none =>
      have passed := List.find?_eq_none.mp found rule inside
      simp at passed
    | some other =>
      have same := List.inj_on_of_nodup_map book.distinct (List.mem_of_find?_eq_some found) inside
        (id_of_get?_eq_some found)
      rw [same]

/-- Nothing is found under an identifier exactly when no rule in the book has it. -/
theorem get?_eq_none_iff {book : Book} {id : RuleId} :
    book.get? id = none ↔ id ∉ book.rules.map Rule.id := by
  simp [get?]

/-- The rules in a book are those that a history tells: the ones that stand, under their
identifiers, in the order in which these were entered. -/
structure Records (book : Book) (events : List Event) : Prop where
  found : ∀ id rule, book.get? id = some rule ↔ rule.id = id ∧ Stands events rule
  entered : ∀ id ∈ book.rules.map Rule.id, ∃ position, EnteredAt events id position
  inOrder : (book.rules.map Rule.id).Pairwise fun a b =>
    ∀ m n, EnteredAt events a m → EnteredAt events b n → m < n
  gone : ∀ id ∉ book.rules.map Rule.id, Gone events id

variable {book : Book} {events : List Event}

/-- The empty book has no history. -/
theorem records_empty : empty.Records [] where
  found id rule := by simp [Stands]
  entered id member := by simp [empty] at member
  inOrder := .nil
  gone id _ position event there := by simp at there

/-- Identifiers that an event leaves alone stay in the order of their entries. -/
theorem Records.inOrder_concat (records : book.Records events) {last : Event}
    {ids : List RuleId} (part : ids.Sublist (book.rules.map Rule.id))
    (quiet : ∀ id ∈ ids, ¬ last.Ends id) :
    ids.Pairwise fun a b => ∀ m n, EnteredAt (events ++ [last]) a m →
      EnteredAt (events ++ [last]) b n → m < n := by
  -- Each of them has the entry that it had before.
  have kept : ∀ id ∈ ids, ∀ position, EnteredAt (events ++ [last]) id position →
      EnteredAt events id position := by
    intro id member position entry
    obtain ⟨old, before⟩ := records.entered id (part.subset member)
    exact entry.of_concat before (quiet id member)
  refine (records.inOrder.sublist part).imp_of_mem ?_
  exact fun insideA insideB ordered m n first second =>
    ordered m n (kept _ insideA m first) (kept _ insideB n second)

/-- A rule that is entered stands in the book, with its identifier at the end if that is new. -/
theorem records_enter (records : book.Records events) (rule : Rule) :
    (book.enter rule).Records (events ++ [.entered rule]) := by
  -- Under the identifier of the rule it stands alone, and the other identifiers are left as they
  -- were.
  have quiet : ∀ id, ¬ (Event.entered rule).Ends id := fun _ ends => ends
  -- Entering changes the list of identifiers only for a new one, which goes to the end.
  have ids : (book.enter rule).rules.map Rule.id =
      if rule.id ∈ book.rules.map Rule.id then book.rules.map Rule.id
      else book.rules.map Rule.id ++ [rule.id] := map_id_place rule book.rules
  have found : ∀ id other, (book.enter rule).get? id = some other ↔
      other.id = id ∧ Stands (events ++ [.entered rule]) other := by
    intro id other
    rw [get?_enter, stands_concat_iff, Event.entered.injEq]
    -- Under the identifier of the rule nothing else stands any longer.
    by_cases here : id = rule.id
    · rw [if_pos here, Option.some.injEq]
      constructor
      · rintro rfl
        exact ⟨here.symm, .inl rfl⟩
      · rintro ⟨same, rfl | ⟨_, replaced, _⟩⟩
        · rfl
        · exact absurd (here.symm.trans same.symm) replaced
    · -- Under any other identifier the last event has no effect.
      rw [if_neg here, records.found]
      constructor
      · rintro ⟨same, stands⟩
        exact ⟨same, .inr ⟨stands, fun equal => here (same.symm.trans equal.symm), quiet _⟩⟩
      · rintro ⟨same, rfl | ⟨stands, _⟩⟩
        · exact absurd same.symm here
        · exact ⟨same, stands⟩
  -- The order of the entries that were there is not touched by the event.
  have ordered := records.inOrder_concat (.refl _) fun id _ => quiet id
  by_cases old : rule.id ∈ book.rules.map Rule.id
  · -- The rule takes the place of the one that was there, and the identifiers stay.
    rw [if_pos old] at ids
    refine ⟨found, ?_, ids ▸ ordered, ?_⟩ <;> rw [ids]
    · intro id member
      obtain ⟨position, entry⟩ := records.entered id member
      exact ⟨position, entry.concat (quiet id)⟩
    · exact fun id absent => (records.gone id absent).concat fun same => absent (same ▸ old)
  · -- The new identifier is entered by the last event, behind all the others.
    rw [if_neg old] at ids
    refine ⟨found, ?_, ?_, ?_⟩ <;> rw [ids]
    · intro id member
      rcases List.mem_append.mp member with before | new
      · obtain ⟨position, entry⟩ := records.entered id before
        exact ⟨position, entry.concat (quiet id)⟩
      · rw [List.mem_singleton.mp new]
        exact ⟨_, (records.gone _ old).enteredAt_concat rfl⟩
    · refine List.pairwise_append.mpr ⟨ordered, List.pairwise_singleton _ _, ?_⟩
      intro id member other same m n first second
      rw [List.mem_singleton.mp same] at second
      obtain ⟨position, before⟩ := records.entered id member
      rw [second.unique ((records.gone _ old).enteredAt_concat rfl)]
      exact (first.of_concat before (quiet id)).lt_length
    · intro id absent
      rw [List.mem_append, List.mem_singleton, not_or] at absent
      exact (records.gone id absent.1).concat (Ne.symm absent.2)

/-- After a removal the other rules stand in the book as before. -/
theorem records_erase (records : book.Records events) (id : RuleId) :
    (book.erase id).Records (events ++ [.taken id]) := by
  -- The rule under the identifier is gone, and the list keeps the others in their order.
  -- The rules are a part of those that were there, and so are their identifiers.
  have part : ((book.erase id).rules.map Rule.id).Sublist (book.rules.map Rule.id) :=
    List.filter_sublist.map Rule.id
  have members : ∀ other, other ∈ (book.erase id).rules.map Rule.id ↔
      other ∈ book.rules.map Rule.id ∧ ¬ (Event.taken id).Ends other := by
    intro other
    simp only [erase, List.mem_map, List.mem_filter, Event.Ends, decide_eq_true_eq]
    constructor
    · rintro ⟨rule, ⟨inside, different⟩, rfl⟩
      exact ⟨⟨rule, inside, rfl⟩, Ne.symm different⟩
    · rintro ⟨⟨rule, inside, rfl⟩, different⟩
      exact ⟨rule, ⟨inside, Ne.symm different⟩, rfl⟩
  refine ⟨?_, ?_, records.inOrder_concat part fun other member => ((members other).mp member).2, ?_⟩
  · intro other rule
    rw [get?_erase, stands_concat_iff]
    -- Under the identifier that is taken out nothing stands.
    by_cases here : other = id
    · rw [if_pos here]
      constructor
      · intro found
        cases found
      · rintro ⟨same, entered | ⟨_, _, kept⟩⟩
        · cases entered
        · exact absurd (here.symm.trans same.symm) kept
    · -- Under any other one the last event has no effect.
      rw [if_neg here, records.found]
      constructor
      · rintro ⟨same, stands⟩
        exact ⟨same, .inr ⟨stands, fun enters => enters,
          fun taken => here (same.symm.trans taken.symm)⟩⟩
      · rintro ⟨same, entered | ⟨stands, _⟩⟩
        · cases entered
        · exact ⟨same, stands⟩
  · -- An identifier that is left has its old entry.
    intro other member
    obtain ⟨position, entry⟩ := records.entered other (part.subset member)
    exact ⟨position, entry.concat ((members other).mp member).2⟩
  · -- An identifier that is missing was taken out just now, or was missing before.
    intro other absent
    by_cases taken : (Event.taken id).Ends other
    · exact .of_ends taken
    · have before : other ∉ book.rules.map Rule.id :=
        fun inside => absent ((members other).mpr ⟨inside, taken⟩)
      exact (records.gone other before).concat fun enters => enters

/-- Nothing stands in the book that starts afresh. -/
theorem records_clear : empty.Records (events ++ [.cleared]) where
  found id rule := by simp [stands_concat_iff, Event.Ends]
  entered id member := by simp [empty] at member
  inOrder := .nil
  gone id _ := .of_ends trivial

/-- What happens to the rules of a book is told by its history. -/
theorem records_apply (records : book.Records events) (event : Event) :
    (event.apply book).Records (events ++ [event]) := by
  -- Each event has its own lemma.
  cases event with
  | entered rule => exact records_enter records rule
  | taken id => exact records_erase records id
  | cleared => exact records_clear

/-- What events, one after the other, make of a book is told by its history. -/
theorem records_foldl (records : book.Records events) (more : List Event) :
    (more.foldl (fun book event => event.apply book) book).Records (events ++ more) := by
  -- Each event is added to the history by itself.
  induction more generalizing book events with
  | nil => simpa using records
  | cons event rest ih => simpa using ih (records_apply records event)

end Book

end Warrant
