import Mathlib.Data.Finset.Card
import Mathlib.Data.List.ReduceOption
import Warrant.Delegation.Basic
import Warrant.Proofs.Rule.Terms

/-! The terms of a grant: which of them there are, and in which order they stand. -/

namespace Warrant

/-- A user stands for a term. -/
theorem Catalog.User.isTerm_predicate (user : Catalog.User) (masked : Bool) :
    (user.predicate masked).IsTerm :=
  Predicate.isTerm_compareWithRequest _ _ _ _

/-- An action stands for a term. -/
theorem Catalog.Action.isTerm_predicate (action : Catalog.Action) : action.predicate.IsTerm :=
  Predicate.isTerm_compareWithRequest _ _ _ _

namespace Delegation

/-- Distinct users have the same public identities as all of them. -/
theorem mem_map_distinct {users : List Catalog.User} {id : String} :
    id ∈ (distinct users).map Catalog.User.publicId ↔ id ∈ users.map Catalog.User.publicId := by
  -- Whoever is left out of the rest has the identity of the first user.
  induction users with
  | nil => rfl
  | cons user rest ih =>
    rw [distinct, List.map_cons, List.map_cons, List.mem_cons, List.mem_cons]
    by_cases first : id = user.publicId
    · simp [first]
    · have kept : id ∈ ((distinct rest).filter fun other => other.publicId ≠ user.publicId).map
          Catalog.User.publicId ↔ id ∈ (distinct rest).map Catalog.User.publicId := by
        simp only [List.mem_map, List.mem_filter, decide_eq_true_eq]
        constructor
        · rintro ⟨other, ⟨member, _⟩, same⟩
          exact ⟨other, member, same⟩
        · rintro ⟨other, member, same⟩
          exact ⟨other, ⟨member, fun equal => first (same.symm.trans equal)⟩, same⟩
      rw [kept, ih]

/-- Distinct users have distinct public identities. -/
theorem nodup_map_distinct (users : List Catalog.User) :
    ((distinct users).map Catalog.User.publicId).Nodup := by
  -- Nobody behind a user has the identity of that user.
  induction users with
  | nil => exact List.nodup_nil
  | cons user rest ih =>
    rw [distinct, List.map_cons, List.nodup_cons]
    refine ⟨?_, (List.filter_sublist.map _).nodup ih⟩
    intro again
    obtain ⟨other, member, same⟩ := List.mem_map.mp again
    have different := (List.mem_filter.mp member).2
    rw [decide_eq_true_eq] at different
    exact different same

/-- There are as many distinct users as public identities. -/
theorem length_distinct (users : List Catalog.User) :
    (distinct users).length = (users.map Catalog.User.publicId).toFinset.card := by
  -- The distinct users have the same identities as all of them, and none of these twice.
  have same : (users.map Catalog.User.publicId).toFinset =
      ((distinct users).map Catalog.User.publicId).toFinset := by
    ext id
    rw [List.mem_toFinset, List.mem_toFinset, mem_map_distinct]
  rw [same, List.toFinset_card_of_nodup (nodup_map_distinct users), List.length_map]

/-- The predicate of the users, one for each public identity: that of a single user stands for
itself, and several are alternatives. -/
def usersPredicate? (users : List Catalog.User) (masked : Bool) : Option Predicate :=
  match (distinct users).map fun user => user.predicate masked with
  | [] => none
  | [term] => some term
  | terms => some (.logical .or terms)

/-- The terms that a grant may have, in their order, each of them only if it is there. -/
def possibleTerms (delegation : Delegation) (rule : Option Rule) (action : Option Catalog.Action)
    (masked : Bool) : List (Option Predicate) :=
  [rule.map Rule.predicate, usersPredicate? delegation.users masked,
    action.map Catalog.Action.predicate, delegation.cap.map capPredicate]

/-- The users contribute their predicate, if there are any. -/
theorem usersTerm_eq (users : List Catalog.User) (masked : Bool) :
    usersTerm users masked = (usersPredicate? users masked).toList := by
  rw [usersTerm, usersPredicate?]
  rcases distinct users with _ | ⟨user, _ | ⟨other, rest⟩⟩ <;> rfl

/-- The terms of a grant are the possible ones that are there. -/
theorem grantTerms_eq (delegation : Delegation) (rule : Option Rule)
    (action : Option Catalog.Action) (masked : Bool) :
    delegation.grantTerms rule action masked =
      (delegation.possibleTerms rule action masked).reduceOption := by
  -- Each of the four terms is there or not, and the list keeps those that are.
  rw [grantTerms, possibleTerms, usersTerm_eq]
  cases rule <;> cases usersPredicate? delegation.users masked <;> cases action <;>
    cases delegation.cap <;> rfl

/-- The users have a predicate exactly when there are any. -/
theorem isSome_usersPredicate? (users : List Catalog.User) (masked : Bool) :
    (usersPredicate? users masked).isSome = !users.isEmpty := by
  -- Distinct users are left whenever there are users.
  rw [usersPredicate?]
  cases users with
  | nil => rfl
  | cons user rest =>
    -- The first user is one of the distinct ones, alone or with others.
    rw [distinct, List.map_cons]
    cases ((distinct rest).filter fun other => other.publicId ≠ user.publicId).map
      fun other => other.predicate masked <;> rfl

/-- A grant has no terms exactly when nothing is there that would contribute one. -/
theorem grantTerms_eq_nil_iff {delegation : Delegation} {rule : Option Rule}
    {action : Option Catalog.Action} {masked : Bool} :
    delegation.grantTerms rule action masked = [] ↔
      rule = none ∧ delegation.users = [] ∧ action = none ∧ delegation.cap = none := by
  -- The users contribute nothing only if there are none.
  have users : usersTerm delegation.users masked = [] ↔ delegation.users = [] := by
    have presence := isSome_usersPredicate? delegation.users masked
    rw [usersTerm_eq]
    cases present : usersPredicate? delegation.users masked <;> simp_all
  simp [grantTerms, users]

/-- A possible term is there exactly when the delegation has what contributes it. -/
theorem map_isSome_possibleTerms (delegation : Delegation) (rule : Option Rule)
    (action : Option Catalog.Action) (masked : Bool) :
    (delegation.possibleTerms rule action masked).map Option.isSome =
      [rule.isSome, !delegation.users.isEmpty, action.isSome, delegation.cap.isSome] := by
  simp [possibleTerms, isSome_usersPredicate?]

/-- The users stand for a term, if there are any. -/
theorem isTerm_of_mem_usersTerm {users : List Catalog.User} {masked : Bool} {term : Predicate}
    (member : term ∈ usersTerm users masked) : term.IsTerm := by
  -- Without users there is no term, and else it combines one term for each of them.
  rw [usersTerm] at member
  split at member
  · cases member
  · rename_i present
    rw [List.mem_singleton.mp member]
    refine Predicate.isTerm_combine .or ?_ ?_
    · intro empty
      exact present (List.map_eq_nil_iff.mp empty)
    · intro alternative among
      obtain ⟨user, _, rfl⟩ := List.mem_map.mp among
      exact user.isTerm_predicate masked

/-- All terms of a grant are terms, whatever rule it has. -/
theorem isTerm_of_mem_grantTerms {delegation : Delegation} {rule : Option Rule}
    {action : Option Catalog.Action} {masked : Bool} {term : Predicate}
    (member : term ∈ delegation.grantTerms rule action masked) : term.IsTerm := by
  -- Each of the four parts has one source.
  simp only [grantTerms, List.mem_append, List.mem_map, Option.mem_toList] at member
  rcases member with ((⟨rule, _, rfl⟩ | users) | ⟨action, _, rfl⟩) | ⟨max, _, rfl⟩
  · exact rule.isTerm_predicate
  · exact isTerm_of_mem_usersTerm users
  · exact action.isTerm_predicate
  · exact isTerm_capPredicate max

/-- Delegations that differ in their users alone have the same policy, or the same error in its
place, when their users contribute the same term. -/
theorem assemble_of_usersTerm_eq {delegation other : Delegation} {masked : Bool}
    (sameRest : { delegation with users := other.users } = other)
    (sameTerm : usersTerm delegation.users masked = usersTerm other.users masked) (book : Book)
    (action : Option Catalog.Action) :
    delegation.assemble book action masked = other.assemble book action masked := by
  -- The users enter the body by their term, and rules are looked up without them.
  have sameTerms (rule : Option Rule) :
      delegation.grantTerms rule action masked = other.grantTerms rule action masked := by
    rw [grantTerms, grantTerms, sameTerm, ← sameRest]
  have sameBody (rules : ResolvedRules) :
      delegation.body rules action masked = other.body rules action masked := by
    rw [body, body, sameTerms, ← sameRest]
  have sameRules : delegation.resolve book = other.resolve book := by
    rw [← sameRest]
    rfl
  have sameFunction : delegation.hashFunction = other.hashFunction := by rw [← sameRest]
  have sameCost : delegation.cost = other.cost := by rw [← sameRest]
  -- Where the rules are found the bodies are the same, and an error is the same without any.
  cases resolved : delegation.resolve book with
  | error cause =>
    rw [assemble_of_resolve_eq_error resolved,
      assemble_of_resolve_eq_error (sameRules ▸ resolved)]
  | ok rules =>
    rw [assemble_of_resolve resolved, assemble_of_resolve (sameRules ▸ resolved), sameBody,
      sameFunction, sameCost]

end Delegation

end Warrant
