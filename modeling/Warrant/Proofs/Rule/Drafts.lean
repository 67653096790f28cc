import Warrant.Proofs.Rule.Editing
import Warrant.Proofs.Rule.Sameness
import Warrant.Proofs.Rule.Window

/-! Drafts that show a rule: built as they are they give the rule back, and edits of their members
list no identifier twice that the rule does not list twice. -/

namespace Warrant

/-- The bounds of an hour that is moved to a start and to a later finish. -/
theorem Window.setFinish_startingAt {window : Window} (ordered : window.start ≤ window.finish) :
    (startingAt window.start).setFinish window.finish = window := by
  -- The finish does not come before the start, which therefore stays.
  have inside : ¬ window.finish < window.start := Instant.not_lt.mpr ordered
  simp [startingAt, setFinish, inside]

/-- The rule that a book holds under the identifier of a rule, or else the rule itself. -/
def Book.current (book : Book) (rule : Rule) : Rule :=
  (book.get? rule.id).getD rule

/-- A constraint with the members that a book holds under the identifiers of its own. -/
def Constraint.current (book : Book) : Constraint → Constraint
  | .group satisfy first rest => .group satisfy (book.current first) (rest.map book.current)
  | constraint => constraint

/-- A constraint can be shown by a draft and taken from it again: a window is not inverted, the
numbers of a circle are finite, and a book holds the members of a group under their identifiers,
with the predicates that they have. -/
def Constraint.IsShown (book : Book) : Constraint → Prop
  | .time window => window.start ≤ window.finish
  | .location fence => fence.latitude.isFinite = true ∧ fence.longitude.isFinite = true ∧
    fence.radius.isFinite = true
  | .cap _ => True
  | .group _ first rest => ∀ member ∈ first :: rest, ∃ current,
    book.get? member.id = some current ∧ current.predicate = member.predicate

namespace Book

/-- A rule that is found is the current one. -/
theorem current_eq {book : Book} {rule current : Rule} (found : book.get? rule.id = some current) :
    book.current rule = current := by
  rw [Book.current, found, Option.getD_some]

/-- The current rule has the identifier of the rule. -/
@[simp] theorem id_current (book : Book) (rule : Rule) : (book.current rule).id = rule.id := by
  -- What the book holds under an identifier has that identifier.
  rw [Book.current]
  cases found : book.get? rule.id with
  | none => rfl
  | some current => exact id_of_get?_eq_some found

end Book

namespace Constraint

variable {book : Book} {constraint : Constraint}

/-- The members that the book holds have the predicates of the members of the constraint. -/
theorem predicate_current (shown : constraint.IsShown book) :
    (constraint.current book).predicate = constraint.predicate := by
  -- Only a group has members that could have changed.
  cases constraint with
  | group satisfy first rest =>
    -- The combination is that of the same predicates in their order.
    have members : ((first :: rest).map book.current).map Rule.predicate =
        (first :: rest).map Rule.predicate := by
      rw [List.map_map]
      apply List.map_congr_left
      intro member inside
      obtain ⟨current, found, same⟩ := shown member inside
      rw [Function.comp_apply, Book.current_eq found, same]
    rw [predicate_group, ← members]
    exact predicate_group ..
  | _ => rfl

/-- The constraint with the members that the book holds is taken for the same. -/
theorem isSame_current (shown : constraint.IsShown book) :
    (constraint.current book).isSame constraint = true := by
  -- Members are compared by their identifiers, which stay, and numbers by their value.
  cases constraint with
  | location fence =>
    obtain ⟨latitude, longitude, radius⟩ := shown
    exact Geofence.isSame_self latitude longitude radius
  | _ => simp [current, isSame]

end Constraint

namespace Draft

/-- Members that a book holds are found in their order, each as often as it is listed. -/
theorem mapM_findMember {book : Book} {members : List Rule}
    (held : ∀ member ∈ members, ∃ current, book.get? member.id = some current) :
    (members.map Rule.id).mapM (findMember book) = .ok (members.map book.current) := by
  -- Each member is looked up by itself, and all of them are found.
  rw [mapM_eq_ok_iff, List.map_map, List.map_map]
  apply List.map_congr_left
  intro member inside
  obtain ⟨current, found⟩ := held member inside
  simp only [Function.comp_apply, findMember, found, Book.current_eq found]

/-- The draft of a rule has the constraint of the rule, with the members that the book holds now. -/
theorem constraint_ofRule (window : Window) {rule : Rule} {book : Book}
    (shown : rule.constraint.IsShown book) :
    (ofRule window rule).constraint book = .ok (rule.constraint.current book) := by
  -- Each kind of constraint is shown in a field of its own, from which it is made again.
  obtain ⟨id, asked⟩ := rule
  cases asked with
  -- An hour at the start of the window is widened by the finish, which does not come before it.
  | time bounds =>
    show Except.ok (Constraint.time ((Window.startingAt bounds.start).setFinish bounds.finish)) = _
    rw [Window.setFinish_startingAt shown]
    rfl
  -- The numbers of a circle are typed in as they are shown.
  | location fence =>
    obtain ⟨latitude, longitude, radius⟩ := shown
    show (GeofenceDraft.ofGeofence fence).validate.map Constraint.location = _
    rw [GeofenceDraft.validate_ofGeofence latitude longitude radius]
    rfl
  | cap max => rfl
  -- The members are looked up in the book by their names.
  | group satisfy first rest =>
    have held : ∀ member ∈ first :: rest, ∃ current, book.get? member.id = some current :=
      fun member inside => (shown member inside).imp fun _ found => found.1
    show ((first :: rest).map Rule.id).mapM (findMember book) >>= _ = _
    rw [mapM_findMember held]
    rfl

/-- A draft that shows a rule and is built as it is gives a rule with the identifier and the
predicate of the first, and with a constraint that is taken for the same: bounds and numbers come
back as they were, and members in their order, each as often as it was listed. -/
theorem build_ofRule (window : Window) {rule : Rule} {book : Book}
    (shown : rule.constraint.IsShown book) :
    ∃ saved, (ofRule window rule).build rule.id book = .ok saved ∧ saved.id = rule.id ∧
      saved.predicate = rule.predicate ∧ saved.constraint.isSame rule.constraint = true := by
  -- The constraint that is made again has the members of the book, which leave the predicate alone.
  have meaning := Constraint.predicate_current shown
  refine ⟨⟨rule.id, rule.constraint.current book⟩, ?_, rfl, ?_, Constraint.isSame_current shown⟩
  · rw [build, constraint_ofRule window shown]
    rfl
  · rw [Rule.predicate, meaning]
    cases rule
    rfl

/-- A circle around the least longitude, with the most miles that 32 bits can tell. -/
def widestFence : Geofence :=
  ⟨.ofIndex true 0, .ofIndex false 1, .ofIndex false 2139095039, .miles⟩

/-- A cap that was once in a group of its own, a circle, and the cap once more. -/
def relistedCap : Rule :=
  ⟨⟨9⟩, .group .any ⟨⟨1⟩, .group .all ⟨⟨3⟩, .cap 2⟩ []⟩
    [⟨⟨2⟩, .location widestFence⟩, ⟨⟨1⟩, .cap 2⟩]⟩

/-- The last instant, the widest circle and the group that lists a cap twice come back from their
drafts. -/
theorem build_ofRule_extremes :
    let book := Book.ofList [⟨⟨1⟩, .cap 2⟩, ⟨⟨2⟩, .location widestFence⟩]
    let moment : Rule := ⟨⟨4⟩, .time ⟨Window.lastInstant, Window.lastInstant⟩⟩
    let circle : Rule := ⟨⟨2⟩, .location widestFence⟩
    let hour := Window.startingAt Window.firstInstant
    (moment.constraint.IsShown book ∧ ∃ saved, (ofRule hour moment).build ⟨4⟩ book = .ok saved ∧
        saved.predicate = moment.predicate) ∧
      (circle.constraint.IsShown book ∧ ∃ saved, (ofRule hour circle).build ⟨2⟩ book = .ok saved ∧
        saved.predicate = circle.predicate) ∧
      relistedCap.constraint.IsShown book ∧
        ∃ saved, (ofRule hour relistedCap).build ⟨9⟩ book = .ok saved ∧
          saved.predicate = relistedCap.predicate ∧
          saved.constraint.isSame relistedCap.constraint = true := by
  -- Each of the three rules satisfies the condition under which it can be shown.
  intro book moment circle hour
  have showsMoment : moment.constraint.IsShown book := Instant.le_refl _
  have showsCircle : circle.constraint.IsShown book := ⟨rfl, rfl, rfl⟩
  have showsGroup : relistedCap.constraint.IsShown book :=
    List.forall_mem_cons.mpr ⟨⟨_, rfl, rfl⟩, List.forall_mem_cons.mpr ⟨⟨_, rfl, rfl⟩,
      List.forall_mem_cons.mpr ⟨⟨_, rfl, rfl⟩, nofun⟩⟩⟩
  obtain ⟨first, builtFirst, _, meansFirst, _⟩ := build_ofRule hour showsMoment
  obtain ⟨second, builtSecond, _, meansSecond, _⟩ := build_ofRule hour showsCircle
  obtain ⟨third, builtThird, _, meansThird, same⟩ := build_ofRule hour showsGroup
  exact ⟨⟨showsMoment, first, builtFirst, meansFirst⟩,
    ⟨showsCircle, second, builtSecond, meansSecond⟩, showsGroup, third, builtThird, meansThird, same⟩

end Draft

/-- An edit of the members of a draft: an identifier is added, or taken out. -/
inductive MemberEdit where
  | add (id : RuleId)
  | remove (id : RuleId)
deriving DecidableEq

/-- The draft after an edit of its members. -/
def MemberEdit.apply (draft : Draft) : MemberEdit → Draft
  | .add id => draft.addMember id
  | .remove id => (draft.takeMember id).2

namespace Draft

/-- A draft as it is opened, with the identifiers that it lists then: of a blank draft and of one for
a single constraint there are none, and of a draft that shows a rule those of its members. -/
inductive Opened : Draft → List RuleId → Prop where
  | blank (window : Window) : Opened (.blank window) []
  | single (window : Window) : Opened (.single window) []
  | ofRule (window : Window) (rule : Rule) :
    Opened (.ofRule window rule) (rule.constraint.members.map Rule.id)

/-- The draft that comes of edits of its members, one after the other. -/
def edited (draft : Draft) (edits : List MemberEdit) : Draft :=
  edits.foldl MemberEdit.apply draft

/-- The last edit is applied to what comes of the others. -/
theorem edited_concat (draft : Draft) (edits : List MemberEdit) (edit : MemberEdit) :
    draft.edited (edits ++ [edit]) = edit.apply (draft.edited edits) := by
  rw [edited, List.foldl_append]
  rfl

/-- A draft lists the identifiers with which it was opened. -/
theorem members_of_opened {draft : Draft} {loaded : List RuleId} (opened : draft.Opened loaded) :
    draft.members = loaded := by
  -- However a draft is opened, its list is the one of the rule, or empty.
  cases opened with
  | blank window => rfl
  | single window => rfl
  | ofRule window rule =>
    obtain ⟨id, asked⟩ := rule
    cases asked <;> rfl

/-- An identifier that is there is not added, and another one comes after all that are there. -/
theorem members_addMember (draft : Draft) (id : RuleId) : (draft.addMember id).members =
    if id ∈ draft.members then draft.members else draft.members ++ [id] := by
  rw [addMember]
  split <;> rfl

/-- An identifier is listed more than once after an edit exactly when it was so before, and the edit
did not take it out. -/
theorem one_lt_count_apply (draft : Draft) (edit : MemberEdit) (id : RuleId) :
    1 < (edit.apply draft).members.count id ↔
      1 < draft.members.count id ∧ edit ≠ .remove id := by
  -- Adding raises a count from nought to one only, and removing takes it down to nought.
  cases edit with
  | add other =>
    rw [MemberEdit.apply, members_addMember, and_iff_left nofun]
    split
    · rfl
    · rename_i absent
      -- What is added was not there, so that it is there once now.
      by_cases same : other = id
      · have none : draft.members.count id = 0 := by
          rw [← same]
          exact List.count_eq_zero.mpr absent
        simp [same, none]
      · simp [same]
  -- The removed identifier is gone, and every other one is counted as before.
  | remove other =>
    show 1 < (draft.members.filter (· ≠ other)).count id ↔ _
    by_cases same : other = id
    · have gone : (draft.members.filter (· ≠ other)).count id = 0 :=
        List.count_eq_zero.mpr (by simp [same])
      rw [gone, same]
      exact iff_of_false (by decide) fun before => before.2 rfl
    · have kept : (draft.members.filter (· ≠ other)).count id = draft.members.count id :=
        List.count_filter (by simpa using Ne.symm same)
      rw [kept]
      simp [same]

/-- An identifier is listed more than once after some edits exactly when it was so before, and none
of the edits took it out. -/
theorem one_lt_count_edited (draft : Draft) (edits : List MemberEdit) (id : RuleId) :
    1 < (draft.edited edits).members.count id ↔
      1 < draft.members.count id ∧ .remove id ∉ edits := by
  -- By induction on the edits from the last to the first.
  induction edits using List.reverseRecOn with
  | nil => simp [edited]
  | append_singleton edits last ih =>
    rw [edited_concat, one_lt_count_apply, ih, and_assoc, List.mem_append, List.mem_singleton,
      not_or, ne_comm]

/-- A member that is taken out was there when it is one of those listed. -/
theorem takeMember_eq (draft : Draft) (id : RuleId) :
    draft.takeMember id = (decide (id ∈ draft.members), draft.removeMember id) := by
  -- As many members are left as there were exactly when none of them is the one.
  have fewer : (draft.removeMember id).members.length ≠ draft.members.length ↔
      id ∈ draft.members := by
    rw [removeMember, ne_eq, List.length_filter_eq_length_iff]
    simp
  rw [takeMember, decide_eq_decide.mpr fewer]

/-- Identifiers that are never taken out stand first, in their order. -/
theorem filter_isPrefix_edited (draft : Draft) (edits : List MemberEdit) :
    draft.members.filter (.remove · ∉ edits) <+: (draft.edited edits).members := by
  -- By induction on the edits from the last to the first.
  induction edits using List.reverseRecOn with
  | nil => simp [edited]
  | append_singleton edits last ih =>
    rw [edited_concat]
    cases last with
    | add id =>
      -- Whatever is added comes after all that is there.
      have same : draft.members.filter (.remove · ∉ edits ++ [.add id]) =
          draft.members.filter (.remove · ∉ edits) := by
        simp
      rw [same, MemberEdit.apply, members_addMember]
      split
      · exact ih
      · exact ih.trans (List.prefix_append ..)
    | remove id =>
      -- What is taken out is left out on both sides.
      have fewer : draft.members.filter (.remove · ∉ edits ++ [.remove id]) =
          (draft.members.filter (.remove · ∉ edits)).filter (· ≠ id) := by
        rw [List.filter_filter]
        apply List.filter_congr
        intro other _
        simp [and_comm]
      rw [fewer]
      exact ih.filter _

/-- The identifiers in a draft are different ones, whatever edits are made of it, exactly when each
one that the loaded rule lists more than once was taken out. Those that were loaded and never taken
out stand first, in their order. A further one is added at the end unless it is there; one that is
taken out is gone, with a word on whether it was there, and the others stay as often as they are
there and in their order. -/
theorem nodup_edited_iff {draft : Draft} {loaded : List RuleId} (opened : draft.Opened loaded)
    (edits : List MemberEdit) :
    let result := draft.edited edits
    (result.members.Nodup ↔ ∀ id, 1 < loaded.count id → .remove id ∈ edits) ∧
    loaded.filter (.remove · ∉ edits) <+: result.members ∧
    (∀ id, (id ∈ result.members → (result.addMember id).members = result.members) ∧
      (id ∉ result.members → (result.addMember id).members = result.members ++ [id])) ∧
    ∀ id, ((result.takeMember id).1 = true ↔ id ∈ result.members) ∧
      id ∉ (result.takeMember id).2.members ∧
      (result.takeMember id).2.members.Sublist result.members ∧
      ∀ other, other ≠ id →
        (result.takeMember id).2.members.count other = result.members.count other := by
  intro result
  -- What was loaded is the list of the draft before the edits.
  rw [← members_of_opened opened]
  refine ⟨?_, draft.filter_isPrefix_edited edits, fun id => ?_, fun id => ?_⟩
  · -- An identifier is listed twice in the end when it was at first and no edit took it out.
    rw [List.nodup_iff_count_le_one]
    constructor
    · intro once id repeated
      by_contra kept
      exact absurd ((draft.one_lt_count_edited edits id).mpr ⟨repeated, kept⟩)
        (Nat.not_lt.mpr (once id))
    · intro removed id
      by_contra repeated
      obtain ⟨before, kept⟩ := (draft.one_lt_count_edited edits id).mp (Nat.lt_of_not_le repeated)
      exact kept (removed id before)
  · rw [members_addMember]
    exact ⟨fun there => if_pos there, fun absent => if_neg absent⟩
  · -- Taking out is a filter, and the word that comes with it is whether there was something to
    -- filter.
    rw [takeMember_eq, decide_eq_true_iff]
    refine ⟨Iff.rfl, ?_, List.filter_sublist, fun other different => ?_⟩
    · simp [removeMember]
    · exact List.count_filter (by simpa using different)

/-- When a cap that a rule lists twice is taken out and added again, it is listed once, at the end.
-/
theorem nodup_edited_relistedCap :
    let hour := Window.startingAt Window.firstInstant
    let edits : List MemberEdit := [.add ⟨5⟩, .add ⟨1⟩, .remove ⟨1⟩, .add ⟨1⟩]
    (ofRule hour relistedCap).Opened [⟨1⟩, ⟨2⟩, ⟨1⟩] ∧
      ((ofRule hour relistedCap).edited edits).members = [⟨2⟩, ⟨5⟩, ⟨1⟩] ∧
      ((ofRule hour relistedCap).edited edits).members.Nodup := by
  -- Only the cap was listed twice, and the edits take it out.
  intro hour edits
  have opened : (ofRule hour relistedCap).Opened [⟨1⟩, ⟨2⟩, ⟨1⟩] := .ofRule hour relistedCap
  refine ⟨opened, rfl, (nodup_edited_iff opened edits).1.mpr fun id repeated => ?_⟩
  have listed := List.count_pos_iff.mp (Nat.lt_of_succ_lt repeated)
  rw [List.mem_cons, List.mem_pair] at listed
  rcases listed with cap | circle | cap
  · rw [cap]
    decide
  · -- The circle is listed once.
    rw [circle] at repeated
    exact absurd repeated (by decide)
  · rw [cap]
    decide

/-- A draft that shows a group lists a member twice when the group does, and so it does after an
edit that leaves the member alone. -/
theorem listed_twice_when_loaded :
    let hour := Window.startingAt Window.firstInstant
    let pair : Rule := ⟨⟨2⟩, .group .all ⟨⟨1⟩, .cap 5⟩ [⟨⟨1⟩, .cap 5⟩]⟩
    (ofRule hour pair).Opened [⟨1⟩, ⟨1⟩] ∧ ¬ (ofRule hour pair).members.Nodup ∧
      ¬ ((ofRule hour pair).edited [.add ⟨3⟩]).members.Nodup :=
  ⟨.ofRule .., by decide, by decide⟩

end Draft

end Warrant
