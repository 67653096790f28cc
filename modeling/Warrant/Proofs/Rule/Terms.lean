import Warrant.Proofs.Policy.Combine
import Warrant.Rule.Compile

/-! Every rule stands for a term, however deep its groups are. -/

namespace Warrant

/-- A window stands for a term. -/
theorem Window.isTerm_predicate (window : Window) : window.predicate.IsTerm := by
  -- The two bounds are comparisons under a connective.
  have bounds : ∀ bound ∈ [Predicate.compareWithRequest .leq "time"
      (String.ofList (Text.integer window.start.second)) "time",
      Predicate.compareWithRequest .geq "time"
      (String.ofList (Text.integer window.finish.second)) "time"], bound.IsTerm := by
    intro bound member
    rcases List.mem_pair.mp member with rfl | rfl
    · exact Predicate.isTerm_compareWithRequest _ _ _ _
    · exact Predicate.isTerm_compareWithRequest _ _ _ _
  exact Predicate.isTerm_combine .and (List.cons_ne_nil _ _) bounds

/-- A circle stands for a term. -/
theorem Geofence.isTerm_predicate (fence : Geofence) : fence.predicate.IsTerm :=
  Predicate.isTerm_compareWithRequest _ _ _ _

/-- A cap stands for a term. -/
theorem isTerm_capPredicate (max : Nat) : (capPredicate max).IsTerm :=
  Predicate.isTerm_compareWithRequest _ _ _ _

mutual

/-- Every constraint stands for a term. -/
theorem Constraint.isTerm_predicate : ∀ constraint : Constraint, constraint.predicate.IsTerm
  -- By induction on the nesting of groups, whose members are combined.
  | .time window => window.isTerm_predicate
  | .location fence => fence.isTerm_predicate
  | .cap max => isTerm_capPredicate max
  | .group satisfy first rest => by
    have members : ∀ term ∈ first.predicate :: Rule.predicates rest, term.IsTerm := by
      intro term member
      rcases List.mem_cons.mp member with rfl | later
      · exact first.isTerm_predicate
      · exact Rule.isTerm_of_mem_predicates rest term later
    rw [Constraint.predicate]
    exact Predicate.isTerm_combine _ (List.cons_ne_nil _ _) members

/-- Every rule stands for a term. -/
theorem Rule.isTerm_predicate : ∀ rule : Rule, rule.predicate.IsTerm
  | ⟨_, constraint⟩ => by
    rw [Rule.predicate]
    exact constraint.isTerm_predicate

/-- Rules stand for terms one by one. -/
theorem Rule.isTerm_of_mem_predicates : ∀ (rules : List Rule),
    ∀ term ∈ Rule.predicates rules, term.IsTerm
  -- By recursion along the list, together with the recursion into each rule.
  | [], _, member => by
    rw [Rule.predicates] at member
    cases member
  | rule :: rest, term, member => by
    rw [Rule.predicates] at member
    rcases List.mem_cons.mp member with rfl | later
    · exact rule.isTerm_predicate
    · exact Rule.isTerm_of_mem_predicates rest term later

end

end Warrant
