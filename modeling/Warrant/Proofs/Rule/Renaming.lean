import Mathlib.Data.List.Nodup
import Warrant.Rule.Book
import Warrant.Rule.Compile

/-! Rules and books under other identifiers: what a rule stands for does not depend on any name. -/

namespace Warrant

variable (outer inner : RuleId → RuleId)

mutual

/-- A constraint whose groups, at any depth, have members with other identifiers. -/
def Constraint.renameMembers : Constraint → Constraint
  | .time window => .time window
  | .location fence => .location fence
  | .cap max => .cap max
  | .group satisfy first rest => .group satisfy first.renameAll (Rule.renameEach rest)

/-- A rule with another identifier for itself and for all members inside it. -/
def Rule.renameAll : Rule → Rule
  | ⟨id, constraint⟩ => ⟨inner id, constraint.renameMembers⟩

/-- Rules with other identifiers for themselves and for all members inside them. -/
def Rule.renameEach : List Rule → List Rule
  | [] => []
  | rule :: rest => rule.renameAll :: Rule.renameEach rest

end

mutual

/-- A constraint stands for the same predicate, whatever its members are called. -/
theorem Constraint.predicate_renameMembers : ∀ constraint : Constraint,
    (constraint.renameMembers inner).predicate = constraint.predicate
  -- By induction on the nesting of groups: predicates are combined without a look at names.
  | .time window => by rw [Constraint.renameMembers]
  | .location fence => by rw [Constraint.renameMembers]
  | .cap max => by rw [Constraint.renameMembers]
  | .group satisfy first rest => by
    rw [Constraint.renameMembers, Constraint.predicate, Constraint.predicate,
      Rule.predicate_renameAll first, Rule.predicates_renameEach rest]

/-- A rule stands for the same predicate, whatever it and its members are called. -/
theorem Rule.predicate_renameAll : ∀ rule : Rule,
    (rule.renameAll inner).predicate = rule.predicate
  | ⟨_, constraint⟩ => by
    rw [Rule.renameAll, Rule.predicate, Rule.predicate, constraint.predicate_renameMembers]

/-- Rules stand for the same predicates, whatever they and their members are called. -/
theorem Rule.predicates_renameEach : ∀ rules : List Rule,
    Rule.predicates (Rule.renameEach inner rules) = Rule.predicates rules
  -- By recursion along the list, together with the recursion into each rule.
  | [] => by rw [Rule.renameEach]
  | rule :: rest => by
    rw [Rule.renameEach, Rule.predicates, Rule.predicates, rule.predicate_renameAll,
      Rule.predicates_renameEach rest]

end

/-- A rule of a book with another identifier, and with others for the members inside it. -/
def Rule.rename (rule : Rule) : Rule :=
  ⟨outer rule.id, rule.constraint.renameMembers inner⟩

/-- A rule of a book stands for the same predicate under another identifier. -/
@[simp] theorem Rule.predicate_rename (rule : Rule) :
    (rule.rename outer inner).predicate = rule.predicate := by
  obtain ⟨id, constraint⟩ := rule
  rw [Rule.rename, Rule.predicate, Rule.predicate, constraint.predicate_renameMembers]

namespace Book

variable {outer}

/-- The book with the same rules in the same order under other identifiers, which stay apart. -/
def rename (apart : Function.Injective outer) (book : Book) : Book where
  rules := book.rules.map (Rule.rename outer inner)
  distinct := by
    -- The new identifiers are the images of the old ones.
    have names : (book.rules.map (Rule.rename outer inner)).map Rule.id =
        (book.rules.map Rule.id).map outer := by
      rw [List.map_map, List.map_map]
      rfl
    rw [names]
    exact book.distinct.map apart

/-- Under the new identifier stands the rule that stood under the old one. -/
theorem get?_rename (apart : Function.Injective outer) (book : Book) (id : RuleId) :
    (book.rename inner apart).get? (outer id) = (book.get? id).map (Rule.rename outer inner) := by
  -- The search asks each rule the same question as before, as no two identifiers become one.
  have asked : (fun rule : Rule => decide (rule.id = outer id)) ∘ Rule.rename outer inner =
      fun rule => decide (rule.id = id) := by
    funext rule
    exact decide_eq_decide.mpr apart.eq_iff
  rw [get?, rename, List.find?_map, asked, get?]

end Book

end Warrant
