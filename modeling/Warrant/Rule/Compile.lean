import Warrant.Policy.Predicate
import Warrant.Rule.Basic
import Warrant.Text.Numeral

/-! The predicates that rules stand for. -/

namespace Warrant

/-- The connective between the members of a group. -/
def Satisfy.connective : Satisfy → Connective
  | .all => .and
  | .any => .or

/-- The time of the request lies between the bounds of a window. -/
def Window.predicate (window : Window) : Predicate :=
  let bound (comparison : Comparison) (t : Instant) :=
    Predicate.compareWithRequest comparison "time" (String.ofList (Text.integer t.second)) "time"
  .logical .and [bound .leq window.start, bound .geq window.finish]

/-- The place of the request lies in a circle. -/
def Geofence.predicate (fence : Geofence) : Predicate :=
  .compareWithRequest .geq "geolocation" fence.value "geolocation"

/-- The count of executions is still below a cap. -/
def capPredicate (max : Nat) : Predicate :=
  .compareWithRequest .gt "execution_num" (String.ofList (Text.natural max)) "execution_num"

mutual

/-- The predicate of a constraint. A group of one member stands for that member. -/
def Constraint.predicate : Constraint → Predicate
  | .time window => window.predicate
  | .location fence => fence.predicate
  | .cap max => capPredicate max
  | .group satisfy first rest =>
    .combine satisfy.connective (first.predicate :: Rule.predicates rest)

/-- The predicate of a rule does not depend on its identifier. -/
def Rule.predicate : Rule → Predicate
  | ⟨_, constraint⟩ => constraint.predicate

/-- The predicates of rules in their order. -/
def Rule.predicates : List Rule → List Predicate
  | [] => []
  | rule :: rest => rule.predicate :: Rule.predicates rest

end

/-- The predicates of rules are taken one by one. -/
theorem Rule.predicates_eq_map (rules : List Rule) :
    Rule.predicates rules = rules.map Rule.predicate := by
  -- The recursion is that of the map.
  induction rules with
  | nil => rfl
  | cons rule rest ih => simp [Rule.predicates, ih]

/-- The predicate of a group combines those of its members. -/
theorem Constraint.predicate_group (satisfy : Satisfy) (first : Rule) (rest : List Rule) :
    (Constraint.group satisfy first rest).predicate =
      .combine satisfy.connective ((first :: rest).map Rule.predicate) := by
  rw [Constraint.predicate, Rule.predicates_eq_map, List.map_cons]

end Warrant
