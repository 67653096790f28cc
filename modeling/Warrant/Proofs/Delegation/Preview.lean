import Warrant.Proofs.Delegation.Terms
import Warrant.Proofs.Policy.Masking

/-! Previews of delegations are the policies with the users masked, and all that they show of the
users is how many there are. -/

namespace Warrant

/-- A window is shown as it is. -/
theorem Window.masked_predicate (window : Window) : window.predicate.masked = window.predicate := by
  -- Its bounds are about the time.
  have bound (comparison : Comparison) (value : String) :
      (Predicate.compareWithRequest comparison "time" value "time").mapFacts Fact.masked =
        .compareWithRequest comparison "time" value "time" :=
    Predicate.masked_compareWithRequest_of_ne comparison value "time" (by decide)
  rw [Window.predicate, Predicate.masked, Predicate.mapFacts, Predicate.mapOperands_eq_map,
    List.map_cons, List.map_singleton, bound, bound]

/-- A circle is shown as it is. -/
theorem Geofence.masked_predicate (fence : Geofence) : fence.predicate.masked = fence.predicate :=
  Predicate.masked_compareWithRequest_of_ne _ _ _ (by decide)

/-- A cap is shown as it is. -/
theorem masked_capPredicate (max : Nat) : (capPredicate max).masked = capPredicate max :=
  Predicate.masked_compareWithRequest_of_ne _ _ _ (by decide)

mutual

/-- Every constraint is shown as it is. -/
theorem Constraint.masked_predicate : ∀ constraint : Constraint,
    constraint.predicate.masked = constraint.predicate
  -- By induction on the nesting of groups, whose members are masked one by one.
  | .time window => window.masked_predicate
  | .location fence => fence.masked_predicate
  | .cap max => masked_capPredicate max
  | .group satisfy first rest => by
    rw [Constraint.predicate, Predicate.masked, Predicate.mapFacts_combine, List.map_cons]
    have head : first.predicate.mapFacts Fact.masked = first.predicate := first.masked_predicate
    have tail : (Rule.predicates rest).map (Predicate.mapFacts Fact.masked) =
      Rule.predicates rest := Rule.map_masked_predicates rest
    rw [head, tail]

/-- Every rule is shown as it is. -/
theorem Rule.masked_predicate : ∀ rule : Rule, rule.predicate.masked = rule.predicate
  | ⟨_, constraint⟩ => by
    rw [Rule.predicate]
    exact constraint.masked_predicate

/-- Rules are shown as they are. -/
theorem Rule.map_masked_predicates : ∀ rules : List Rule,
    (Rule.predicates rules).map Predicate.masked = Rule.predicates rules
  | [] => by rw [Rule.predicates, List.map_nil]
  | rule :: rest => by
    rw [Rule.predicates, List.map_cons, rule.masked_predicate, Rule.map_masked_predicates rest]

end

/-- A user is shown under the mask. -/
theorem Catalog.User.masked_predicate (user : Catalog.User) :
    (user.predicate false).masked = user.predicate true :=
  Predicate.masked_compareWithRequest _ _ _ _

/-- An action is shown as it is. -/
theorem Catalog.Action.masked_predicate (action : Catalog.Action) :
    action.predicate.masked = action.predicate :=
  Predicate.masked_compareWithRequest_of_ne _ _ _ (by decide)

/-- An obligation is shown as it is. -/
theorem Catalog.Obligation.masked_fact (obligation : Catalog.Obligation) :
    obligation.fact.masked = obligation.fact := by
  -- Only a fact about a public identity is masked.
  have other : obligation.fact.type ≠ "public_id" := by
    show "obligation" ≠ "public_id"
    decide
  rw [Fact.masked, if_neg other]

namespace Delegation

/-- The users are shown under the mask, as many as are distinct. -/
theorem map_masked_usersTerm (users : List Catalog.User) :
    (usersTerm users false).map Predicate.masked = usersTerm users true := by
  -- Who is distinct is decided before anyone is masked.
  have each : ((distinct users).map fun user => user.predicate false).map
      (Predicate.mapFacts Fact.masked) = (distinct users).map fun user => user.predicate true := by
    rw [List.map_map]
    exact List.map_congr_left fun user _ => user.masked_predicate
  rw [usersTerm, usersTerm]
  split
  · rfl
  · rw [List.map_singleton, Predicate.masked, Predicate.mapFacts_combine, each]

/-- The terms of a grant are shown as they are, apart from the users. -/
theorem map_masked_grantTerms (delegation : Delegation) (rule : Option Rule)
    (action : Option Catalog.Action) :
    (delegation.grantTerms rule action false).map Predicate.masked =
      delegation.grantTerms rule action true := by
  -- The terms come from four parts, each of which is masked by itself.
  rw [grantTerms, grantTerms, List.map_append, List.map_append, List.map_append,
    Predicate.map_masked_map Rule.masked_predicate, map_masked_usersTerm,
    Predicate.map_masked_map Catalog.Action.masked_predicate,
    Predicate.map_masked_map masked_capPredicate]

/-- The body of a preview is that of the policy as a preview shows it. -/
theorem masked_body (delegation : Delegation) (rules : ResolvedRules)
    (action : Option Catalog.Action) :
    (delegation.body rules action false).masked = delegation.body rules action true := by
  -- The mask leaves everything but the terms of the grant alone.
  have obligations (obligation : Option Catalog.Obligation) :
      (obligation.map fun obligation => [obligation.fact]).map (List.map Fact.masked) =
        obligation.map fun obligation => [obligation.fact] := by
    cases obligation with
    | none => rfl
    | some obligation =>
      rw [Option.map_some, Option.map_some, List.map_singleton, obligation.masked_fact]
  have deny : ((rules.deny.map Rule.predicate).getD .empty).masked =
      (rules.deny.map Rule.predicate).getD .empty := by
    cases rules.deny with
    | none => exact Predicate.mapFacts_empty Fact.masked
    | some rule => exact rule.masked_predicate
  have grant : (Predicate.combine .and (delegation.grantTerms rules.grant action false)).masked =
      .combine .and (delegation.grantTerms rules.grant action true) := by
    rw [← map_masked_grantTerms]
    exact Predicate.mapFacts_combine _ _ _
  rw [body, body, Body.masked]
  dsimp only
  rw [obligations, obligations, deny, grant]

/-- The preview of a delegation for an action is its policy as a preview shows it. -/
theorem assemble_masked (delegation : Delegation) (book : Book) (action : Option Catalog.Action) :
    delegation.assemble book action true =
      (delegation.assemble book action false).map Policy.masked := by
  -- When a rule is missing, the error is the same before anything is masked.
  cases resolved : delegation.resolve book with
  | error cause =>
    rw [assemble_of_resolve_eq_error resolved, assemble_of_resolve_eq_error resolved]
    rfl
  | ok rules =>
    -- The rules are the same, so that only the contents are to be compared.
    rw [assemble_of_resolve resolved, assemble_of_resolve resolved, if_pos rfl,
      if_neg Bool.false_ne_true, ← masked_body, Policy.preview_masked]
    cases Policy.make delegation.hashFunction (delegation.body rules action false)
      delegation.cost <;> rfl

/-- A preview fails exactly when the policy fails, with the same error, and otherwise it is the
policy with the mask for the identity of every user and for the identifier, and the same in all
else. So it is action by action, when there is a policy for each. -/
theorem assemble_preview_eq_masked (delegation : Delegation) (book : Book) :
    (∀ action, delegation.assemble book action true =
      (delegation.assemble book action false).map Policy.masked) ∧
    delegation.assembleEach book true =
      (delegation.assembleEach book false).map (List.map Policy.masked) := by
  -- For a single action this is the lemma before, and for several it holds one by one.
  refine ⟨delegation.assemble_masked book, ?_⟩
  rw [assembleEach, assembleEach]
  -- Without users or without actions there is the same error in either case.
  split
  · rfl
  · split
    · rfl
    · rw [← mapM_map_result]
      simp only [assemble_masked]

/-- Behind the mask every user is the same. -/
theorem map_predicate_masked (users : List Catalog.User) :
    (users.map fun user => user.predicate true) = List.replicate users.length
      (.compareWithRequest .eq "public_id" PolicyId.maskText "subject") :=
  List.map_eq_replicate_iff.mpr fun _ _ => rfl

/-- As many distinct users are shown by the same term. -/
theorem usersTerm_masked_eq {users others : List Catalog.User}
    (sameCount : (users.map Catalog.User.publicId).toFinset.card =
      (others.map Catalog.User.publicId).toFinset.card) :
    usersTerm users true = usersTerm others true := by
  -- There are as many distinct users as public identities.
  rw [← length_distinct, ← length_distinct] at sameCount
  rw [usersTerm_eq, usersTerm_eq, usersPredicate?, usersPredicate?, map_predicate_masked,
    map_predicate_masked, sameCount]

/-- Delegations that differ in their users alone, and give access to as many distinct users, have
the same preview, or the same error in its place. -/
theorem assemble_preview_hides_users {delegation other : Delegation}
    (sameRest : { delegation with users := other.users } = other)
    (sameCount : (delegation.users.map Catalog.User.publicId).toFinset.card =
      (other.users.map Catalog.User.publicId).toFinset.card)
    (book : Book) (action : Option Catalog.Action) :
    delegation.assemble book action true = other.assemble book action true := by
  -- The users enter the preview by their term alone.
  exact assemble_of_usersTerm_eq sameRest (usersTerm_masked_eq sameCount) book action

/-- A delegation to two users, one of whom is selected twice. -/
def selectedTwice : Delegation :=
  { Delegation.empty with
    users := [⟨"User 1", "a"⟩, ⟨"User 2", "b"⟩, ⟨"User 3", "a"⟩] }

/-- A delegation to two other users. -/
def otherUsers : Delegation :=
  { Delegation.empty with users := [⟨"User 4", "c"⟩, ⟨"User 5", "d"⟩] }

/-- Two users, one of whom is selected twice, are not told from two others. -/
theorem selectedTwice_hides_users :
    selectedTwice.users ≠ otherUsers.users ∧
      selectedTwice.assemble .empty none true = otherUsers.assemble .empty none true ∧
      ∃ policy, otherUsers.assemble .empty none true = .ok policy := by
  refine ⟨by decide, ?_, _, rfl⟩
  exact assemble_preview_hides_users rfl (by decide) .empty none

end Delegation

end Warrant
