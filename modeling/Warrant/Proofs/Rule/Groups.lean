import Warrant.Proofs.Policy.Combine
import Warrant.Proofs.Rule.Editing
import Warrant.Proofs.Rule.Window
import Warrant.Rule.Compile

/-! A group holds the rules that a book held when the group was built. It follows the book as long
as rules with the same predicates stand there. -/

namespace Warrant

namespace Constraint

/-- A group with another rule in the place of a member; other constraints have no members. -/
def replaceMember (position : Nat) (rule : Rule) : Constraint → Constraint
  | .group satisfy first rest =>
    match position with
    | 0 => .group satisfy rule rest
    | behind + 1 => .group satisfy first (rest.set behind rule)
  | constraint => constraint

/-- A group with another rule in the place of a member has the same predicate exactly when the two
rules have the same predicate. -/
theorem predicate_replaceMember_eq_iff {constraint : Constraint} {position : Nat}
    {member rule : Rule} (held : constraint.members[position]? = some member) :
    (constraint.replaceMember position rule).predicate = constraint.predicate ↔
      rule.predicate = member.predicate := by
  -- Nothing but a group has members.
  cases constraint with
  | group satisfy first rest =>
    -- Both groups combine as many predicates, and the combination shows each of them.
    have replaced : ((Constraint.group satisfy first rest).replaceMember position rule).predicate =
        .combine satisfy.connective
          (((first :: rest).map Rule.predicate).set position rule.predicate) := by
      cases position <;> simp [replaceMember, predicate_group, List.map_set]
    have there : ((first :: rest).map Rule.predicate)[position]? = some member.predicate := by
      rw [members] at held
      rw [List.getElem?_map, held, Option.map_some]
    obtain ⟨within, value⟩ := List.getElem?_eq_some_iff.mp there
    rw [replaced, predicate_group, Predicate.combine_inj _ (List.length_set ..)]
    constructor
    · intro same
      have entry := List.getElem?_set_self (a := rule.predicate) within
      rw [same, there] at entry
      exact (Option.some.inj entry).symm
    · intro same
      rw [same, ← value, List.set_getElem_self]
  | _ => simp [members] at held

end Constraint

/-- A rule follows a book when every member of it that is named in the book can be replaced by the
rule that stands there under the name, and the predicate stays the same. -/
def Rule.Follows (rule : Rule) (book : Book) : Prop :=
  ∀ (position : Nat) (member current : Rule),
    rule.constraint.members[position]? = some member → book.get? member.id = some current →
      (rule.constraint.replaceMember position current).predicate = rule.constraint.predicate

/-- A rule follows a book exactly when the book holds, under the names of its members, rules with
the predicates of these members. -/
theorem Rule.follows_iff (rule : Rule) (book : Book) : rule.Follows book ↔
    ∀ member ∈ rule.constraint.members, ∀ current, book.get? member.id = some current →
      current.predicate = member.predicate := by
  -- One replacement concerns one member, and members are what stands at some position.
  constructor
  · intro follows member inside current named
    obtain ⟨position, held⟩ := List.getElem?_of_mem inside
    exact (Constraint.predicate_replaceMember_eq_iff held).mp
      (follows position member current held named)
  · intro same position member current held named
    have inside := List.mem_of_getElem? held
    exact (Constraint.predicate_replaceMember_eq_iff held).mpr (same member inside current named)

/-- A rule in an edited book was put in by one of the edits and has stood there ever since. If that
edit built a group, the group holds the rules that stood in the book then, and it follows the book
as long as the same rules stand under their names. In any case a rule follows the book exactly when
the rules that stand there now have the predicates of its members. -/
theorem Rule.follows_iff_members_unchanged {edits : List Edit} {id : RuleId} {rule : Rule}
    (stored : (Book.edited edits).get? id = some rule) :
    (∃ before edit after, edits = before ++ edit :: after ∧
      edit.entered? (Book.edited before) = some rule ∧
      (∀ since, since <+: after →
        (Book.edited (before ++ edit :: since)).get? id = some rule) ∧
      ∀ draft name, edit = .build draft name → draft.kind = some .multiple →
        draft.members.map (Book.edited before).get? = rule.constraint.members.map some ∧
        ((∀ member ∈ draft.members,
          (Book.edited edits).get? member = (Book.edited before).get? member) →
          rule.Follows (Book.edited edits))) ∧
    (rule.Follows (Book.edited edits) ↔ ∀ member ∈ rule.constraint.members, ∀ current,
      (Book.edited edits).get? member.id = some current →
        current.predicate = member.predicate) := by
  -- The history of the book tells which edit entered the rule.
  refine ⟨?_, rule.follows_iff _⟩
  obtain ⟨before, edit, after, whole, entered, kept⟩ := Book.exists_entry stored
  refine ⟨before, edit, after, whole, entered, kept, ?_⟩
  rintro draft name rfl multiple
  -- The group came of a draft that was not turned down.
  have built : draft.build name (Book.edited before) = .ok rule := by
    rw [Edit.entered?] at entered
    cases outcome : draft.build name (Book.edited before) with
    | error cause =>
      rw [outcome] at entered
      cases entered
    | ok other =>
      rw [outcome] at entered
      rw [Option.some.inj entered]
  have lookedUp := Draft.members_of_build multiple built
  refine ⟨lookedUp, fun unchanged => (rule.follows_iff _).mpr ?_⟩
  intro member inside current named
  -- What stands under the name of a member is the member itself, as it was found then.
  have held : some member ∈ draft.members.map (Book.edited before).get? := by
    rw [lookedUp]
    exact List.mem_map_of_mem inside
  obtain ⟨name', listed, found⟩ := List.mem_map.mp held
  have sameName : member.id = name' := Book.id_of_get?_eq_some found
  rw [sameName, unchanged name' listed, found, Option.some.injEq] at named
  rw [named]

/-- The calendar reaches the start of 1970. -/
theorem Instant.reaches_zero : earliest ≤ 0 ∧ 0 ≤ latest := by
  decide

/-- A cap of five executions, and a group of it that is built from a draft. -/
def cappedEdits : List Edit :=
  let window : Window := .startingAt ⟨0, 0, Instant.reaches_zero, Instant.zero_nanos_bounded⟩
  [.put ⟨⟨1⟩, .cap 5⟩,
    .build { Draft.blank window with kind := some .multiple, members := [⟨1⟩] } ⟨2⟩]

/-- The group of a cap of five executions. -/
def cappedGroup : Rule :=
  ⟨⟨2⟩, .group .all ⟨⟨1⟩, .cap 5⟩ []⟩

/-- The group follows the book in which it was built. -/
theorem cappedGroup_follows :
    (Book.edited cappedEdits).get? ⟨2⟩ = some cappedGroup ∧
      cappedGroup.Follows (Book.edited cappedEdits) := by
  -- The group was built last, and it stands in the book under its own name.
  have stored : (Book.edited cappedEdits).get? ⟨2⟩ = some cappedGroup := by rfl
  refine ⟨stored, (Rule.follows_iff_members_unchanged stored).2.mpr ?_⟩
  -- The one member stands in the book as it is.
  intro member inside current named
  obtain rfl := List.mem_singleton.mp inside
  have present : (Book.edited cappedEdits).get? ⟨1⟩ = some ⟨⟨1⟩, .cap 5⟩ := by rfl
  rw [present, Option.some.injEq] at named
  rw [← named]

/-- When the cap is lowered to one execution, the group stays with five, although the book names the
lower cap: groups do not follow the rules they name. -/
theorem loweredCap_not_followed :
    (Book.edited (cappedEdits ++ [.put ⟨⟨1⟩, .cap 1⟩])).get? ⟨2⟩ = some cappedGroup ∧
      cappedGroup.predicate = capPredicate 5 ∧
      ¬ cappedGroup.Follows (Book.edited (cappedEdits ++ [.put ⟨⟨1⟩, .cap 1⟩])) := by
  -- To follow the book is to have the predicate that goes with the cap in force.
  refine ⟨rfl, rfl, fun follows => ?_⟩
  -- The member is replaced by the rule that stands in the book under its name.
  have same : capPredicate 1 = capPredicate 5 :=
    follows 0 ⟨⟨1⟩, .cap 5⟩ ⟨⟨1⟩, .cap 1⟩ rfl rfl
  exact absurd same (by decide)

end Warrant
