import Mathlib.Data.List.Induction
import Warrant.Proofs.Outcome
import Warrant.Rule.Draft

/-! Books that are edited step by step: where the rules in them come from. -/

namespace Warrant

/-- An edit of a book: a rule is put in, a rule is taken out, or a draft is built and what comes of
it is put in. -/
inductive Edit where
  | put (rule : Rule)
  | remove (id : RuleId)
  | build (draft : Draft) (id : RuleId)

namespace Edit

/-- The rule that an edit puts into a book. -/
def entered? (book : Book) : Edit → Option Rule
  | .put rule => some rule
  | .remove _ => none
  | .build draft id => (draft.build id book).toOption

/-- The book after an edit. A draft that is turned down changes nothing. -/
def apply (book : Book) : Edit → Book
  | .put rule => (book.put rule).2
  | .remove id => (book.remove id).2
  | .build draft id =>
    match draft.build id book with
    | .ok rule => (book.put rule).2
    | .error _ => book

/-- What stands in a book after an edit was put in by that edit, or stood there before. -/
theorem get?_apply {book : Book} {edit : Edit} {id : RuleId} {rule : Rule}
    (found : (edit.apply book).get? id = some rule) :
    edit.entered? book = some rule ∨ book.get? id = some rule := by
  -- A rule that is put in changes one look-up, and so does one that is taken out.
  have entry : ∀ other : Rule, (book.enter other).get? id = some rule →
      some other = some rule ∨ book.get? id = some rule := by
    intro other held
    rw [Book.get?_enter] at held
    split at held
    · exact .inl held
    · exact .inr held
  -- A rule is put in, taken out, or built, in which case it is put in unless the draft is refused.
  cases edit with
  | put other => exact entry other found
  | remove gone =>
    have held : (book.erase gone).get? id = some rule := found
    rw [Book.get?_erase] at held
    split at held
    · cases held
    · exact .inr held
  | build draft name =>
    simp only [apply] at found
    rw [entered?]
    cases built : draft.build name book with
    | error cause =>
      rw [built] at found
      exact .inr found
    | ok other =>
      rw [built] at found
      exact entry other found

end Edit

namespace Book

/-- The book that comes of edits, one after the other, of the empty book. -/
def edited (edits : List Edit) : Book :=
  edits.foldl Edit.apply .empty

/-- The last edit is applied to what comes of the others. -/
theorem edited_concat (edits : List Edit) (edit : Edit) :
    edited (edits ++ [edit]) = edit.apply (edited edits) := by
  rw [edited, List.foldl_append]
  rfl

/-- A rule that stands in an edited book was put in by one of the edits and has stood there ever
since. -/
theorem exists_entry {edits : List Edit} {id : RuleId} {rule : Rule}
    (stored : (edited edits).get? id = some rule) :
    ∃ before edit after, edits = before ++ edit :: after ∧
      edit.entered? (edited before) = some rule ∧
      ∀ since, since <+: after → (edited (before ++ edit :: since)).get? id = some rule := by
  -- By induction on the edits from the last to the first: it is the last one, or one before it.
  induction edits using List.reverseRecOn with
  | nil =>
    have absent : (edited []).get? id = none := get?_empty id
    rw [absent] at stored
    cases stored
  | append_singleton edits last ih =>
    have held := stored
    rw [edited_concat] at held
    rcases Edit.get?_apply held with entered | earlier
    · -- The last edit entered the rule, and there is nothing behind it.
      refine ⟨edits, last, [], rfl, entered, ?_⟩
      intro since within
      rw [List.prefix_nil.mp within]
      exact stored
    · -- The rule was there before, and the last edit has left it.
      obtain ⟨before, edit, after, rfl, entered, kept⟩ := ih earlier
      refine ⟨before, edit, after ++ [last], by simp, entered, ?_⟩
      intro since within
      -- Either the last edit is not reached, or all edits are made.
      rcases List.prefix_concat_iff.mp within with whole | part
      · rw [whole]
        simpa using stored
      · exact kept since part

end Book

namespace Draft

/-- A member is found exactly when the book holds a rule under its identifier. -/
theorem toOption_findMember (book : Book) (id : RuleId) :
    (findMember book id).toOption = book.get? id := by
  rw [findMember]
  cases book.get? id <;> rfl

/-- Members that are all found are the rules that the book holds under their identifiers. -/
theorem map_get?_of_mapM_findMember {book : Book} {ids : List RuleId} {members : List Rule}
    (found : ids.mapM (findMember book) = .ok members) :
    ids.map book.get? = members.map some := by
  -- Each identifier is looked up by itself, and none of them fails.
  have each := congrArg (List.map Except.toOption) (mapM_eq_ok_iff.mp found)
  rw [List.map_map, List.map_map] at each
  calc ids.map book.get?
      = ids.map (Except.toOption ∘ findMember book) :=
        List.map_congr_left fun id _ => (toOption_findMember book id).symm
    _ = members.map (Except.toOption ∘ (Except.ok : Rule → Except Rejection Rule)) := each
    _ = members.map some := rfl

/-- A group that is built holds the rules that stand in the book under the identifiers of the draft.
-/
theorem members_of_build {draft : Draft} {id : RuleId} {book : Book} {group : Rule}
    (multiple : draft.kind = some .multiple) (built : draft.build id book = .ok group) :
    draft.members.map book.get? = group.constraint.members.map some := by
  -- The members of the group are the rules that were found, in their order.
  rw [build, constraint, multiple] at built
  cases found : draft.members.mapM (findMember book) with
  | error cause =>
    rw [found] at built
    cases built
  | ok members =>
    rw [map_get?_of_mapM_findMember found]
    rw [found] at built
    cases members with
    | nil => cases built
    | cons first rest =>
      cases built
      rfl

end Draft

end Warrant
