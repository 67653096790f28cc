import Warrant.Proofs.Rule.Terms

/-! Rules inside rules. A rule may be put into a group of its own, or taken out of one, at any place
in a rule, and the predicate stays the same. -/

namespace Warrant

/-- A rule stands within another: it is that rule, or it stands within a member of it. -/
inductive Rule.Within (part : Rule) : Rule → Prop where
  | whole : Within part part
  | member {whole member : Rule} (held : member ∈ whole.constraint.members)
    (within : Within part member) : Within part whole

namespace Constraint

/-- The group that has a rule between others. -/
def around (satisfy : Satisfy) (before : List Rule) (rule : Rule) (after : List Rule) :
    Constraint :=
  match before with
  | [] => .group satisfy rule after
  | first :: rest => .group satisfy first (rest ++ rule :: after)

/-- A group around a rule has it as a member between the others. -/
@[simp] theorem members_around (satisfy : Satisfy) (before : List Rule) (rule : Rule)
    (after : List Rule) : (around satisfy before rule after).members = before ++ rule :: after := by
  cases before <;> rfl

/-- The predicate of a group around a rule combines those of its members in their order. -/
theorem predicate_around (satisfy : Satisfy) (before : List Rule) (rule : Rule)
    (after : List Rule) : (around satisfy before rule after).predicate =
      .combine satisfy.connective ((before ++ rule :: after).map Rule.predicate) := by
  cases before <;> exact predicate_group ..

/-- A constraint with a member is a group around it. -/
theorem exists_eq_around_of_mem {constraint : Constraint} {member : Rule}
    (held : member ∈ constraint.members) :
    ∃ satisfy before after, constraint = around satisfy before member after := by
  -- Only a group has members, and the member cuts its list in two.
  cases constraint with
  | group satisfy first rest =>
    obtain ⟨before, after, split⟩ := List.append_of_mem held
    refine ⟨satisfy, before, after, ?_⟩
    -- The first member is the one that is looked for, or it stands before that.
    cases before with
    | nil =>
      cases split
      rfl
    | cons other others =>
      cases split
      rfl
  | _ => cases held

end Constraint

/-- A place in a rule: that of the whole, or a place in a member of a group, whose other members
stand before and after it. -/
inductive Rule.Place where
  | here
  | inside (id : RuleId) (satisfy : Satisfy) (before : List Rule) (place : Rule.Place)
    (after : List Rule)

namespace Rule.Place

/-- The rule that has a given rule at a place. -/
def fill : Place → Rule → Rule
  | .here, rule => rule
  | .inside id satisfy before place after, rule =>
    ⟨id, .around satisfy before (place.fill rule) after⟩

/-- A rule at a place stands within the whole. -/
theorem within_fill (place : Rule.Place) (rule : Rule) : rule.Within (place.fill rule) := by
  induction place with
  | here => exact .whole
  | inside id satisfy before place after ih => exact .member (by simp [fill]) ih

/-- The predicate of the whole depends on the rule at a place only by its predicate. -/
theorem predicate_fill_congr (place : Rule.Place) {a b : Rule} (same : a.predicate = b.predicate) :
    (place.fill a).predicate = (place.fill b).predicate := by
  -- By induction on the groups around the place, which combine the predicates of their members.
  induction place with
  | here => exact same
  | inside id satisfy before place after ih =>
    simp only [fill, Rule.predicate, Constraint.predicate_around, List.map_append,
      List.map_cons, ih]

end Rule.Place

namespace Rule

/-- A rule stands within another exactly when there is a place for it. -/
theorem within_iff_exists_fill {part whole : Rule} :
    part.Within whole ↔ ∃ place : Rule.Place, place.fill part = whole := by
  constructor
  · -- Around the place in a member stand the other members.
    intro within
    induction within with
    | whole => exact ⟨.here, rfl⟩
    | @member whole member held _ ih =>
      obtain ⟨place, filled⟩ := ih
      obtain ⟨id, constraint⟩ := whole
      obtain ⟨satisfy, before, after, rfl⟩ := Constraint.exists_eq_around_of_mem held
      refine ⟨.inside id satisfy before place after, ?_⟩
      rw [Place.fill, filled]
  · rintro ⟨place, rfl⟩
    exact place.within_fill part

/-- A group of which a rule is the only member. -/
def alone (rule : Rule) (id : RuleId) (satisfy : Satisfy) : Rule :=
  ⟨id, .group satisfy rule []⟩

/-- A rule that is the only member of a group gives the group its predicate. -/
@[simp] theorem predicate_alone (rule : Rule) (id : RuleId) (satisfy : Satisfy) :
    (rule.alone id satisfy).predicate = rule.predicate := by
  -- A single predicate is combined to itself.
  rw [alone, predicate, Constraint.predicate_group]
  rfl

/-- The predicate of a rule is that of what it asks for. -/
theorem predicate_eq_constraint_predicate (rule : Rule) :
    rule.predicate = rule.constraint.predicate := by
  cases rule
  rw [predicate]

end Rule

/-- Every constraint has a list-like, well-formed predicate, which is not the empty one and is read
back from its value. Wherever a rule stands within the constraint, it may be replaced by a group in
which it is alone, and such a group by its member, and the predicate stays the same. -/
theorem Constraint.predicate_flattened (constraint : Constraint) :
    (constraint.predicate.isListLike = true ∧ constraint.predicate.WellFormed ∧
      constraint.predicate ≠ .empty ∧
      Predicate.ofJson? constraint.predicate.toJson.sorted = some constraint.predicate) ∧
    (∀ whole part : Rule, whole.constraint = constraint →
      (part.Within whole ↔ ∃ place : Rule.Place, place.fill part = whole)) ∧
    ∀ (place : Rule.Place) (rule : Rule) (id : RuleId) (satisfy : Satisfy),
      ((place.fill rule).constraint = constraint →
        (place.fill (rule.alone id satisfy)).predicate = constraint.predicate) ∧
      ((place.fill (rule.alone id satisfy)).constraint = constraint →
        (place.fill rule).predicate = constraint.predicate) := by
  -- The predicate of a constraint is a term, from which the first four facts follow.
  have term := constraint.isTerm_predicate
  refine ⟨⟨term.listLike, term.formed, term.ne_empty, ?_⟩, fun _ _ _ => Rule.within_iff_exists_fill,
    fun place rule id satisfy => ?_⟩
  · rw [Predicate.ofJson?_sorted_toJson, term.formed.ofJson?_toJson]
  · -- A rule and the group in which it is alone have the same predicate, and so have the wholes.
    have same := place.predicate_fill_congr (rule.predicate_alone id satisfy)
    constructor
    · rintro rfl
      rw [same, Rule.predicate_eq_constraint_predicate]
    · rintro rfl
      rw [← same, Rule.predicate_eq_constraint_predicate]

/-- A cap of two executions, or caps of both three and four. -/
def nestedCaps : Constraint :=
  .group .any ⟨⟨1⟩, .cap 2⟩ [⟨⟨2⟩, .group .all ⟨⟨3⟩, .cap 3⟩ [⟨⟨4⟩, .cap 4⟩]⟩]

/-- A group around the last of the nested caps makes no difference, and neither does it when it is
taken out again. -/
theorem Constraint.predicate_nestedCaps :
    let place : Rule.Place := .inside ⟨5⟩ .any [⟨⟨1⟩, .cap 2⟩]
      (.inside ⟨2⟩ .all [⟨⟨3⟩, .cap 3⟩] .here []) []
    let last : Rule := ⟨⟨4⟩, .cap 4⟩
    (place.fill last).constraint = nestedCaps ∧
      (place.fill (last.alone ⟨6⟩ .any)).predicate = nestedCaps.predicate ∧
      (place.fill last).predicate = (place.fill (last.alone ⟨6⟩ .any)).constraint.predicate := by
  -- The same two results are used for putting the group in and for taking it out.
  intro place last
  have held : (place.fill last).constraint = nestedCaps := rfl
  exact ⟨held, ((predicate_flattened nestedCaps).2.2 place last ⟨6⟩ .any).1 held,
    ((predicate_flattened _).2.2 place last ⟨6⟩ .any).2 rfl⟩

end Warrant
