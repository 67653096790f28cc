import Warrant.Proofs.Delegation.Terms
import Warrant.Proofs.Policy.BodyReading
import Warrant.Proofs.Policy.Masking

/-! What delegations are put into effect by: policies that are read back as they are, and whose
identifiers are confirmed unless they are previews. -/

namespace Warrant.Delegation

/-- The rule under an identifier is what the book holds there, and there is one if there is an
identifier. -/
theorem of_findRule_eq_ok {book : Book} {id : Option RuleId} {rule : Option Rule}
    (found : findRule book id = .ok rule) : rule = id.bind book.get? ∧ rule.isSome = id.isSome := by
  -- Without an identifier nothing is looked for, and nothing is found.
  cases id with
  | none =>
    cases found
    exact ⟨rfl, rfl⟩
  | some id =>
    -- A rule that is not in the book is an error.
    rw [findRule] at found
    cases held : book.get? id with
    | none =>
      rw [held] at found
      cases found
    | some other =>
      rw [held] at found
      cases found
      exact ⟨held.symm, rfl⟩

/-- The rules of a delegation are what the book holds under its two identifiers. -/
theorem of_resolve_eq_ok {delegation : Delegation} {book : Book} {rules : ResolvedRules}
    (resolved : delegation.resolve book = .ok rules) :
    rules.grant = delegation.grantRule.bind book.get? ∧
      rules.grant.isSome = delegation.grantRule.isSome ∧
      rules.deny = delegation.denyRule.bind book.get? := by
  -- The grant is looked for first, and the rule of denial only after it was found.
  obtain ⟨grant, granting, resolved⟩ := bind_eq_ok_iff.mp resolved
  obtain ⟨deny, denying, resolved⟩ := bind_eq_ok_iff.mp resolved
  cases resolved
  exact ⟨(of_findRule_eq_ok granting).1, (of_findRule_eq_ok granting).2,
    (of_findRule_eq_ok denying).1⟩

/-- A policy is assembled when the rules are in the book and the content has an identifier, which
only a policy that is no preview carries. -/
theorem of_assemble_eq_ok {delegation : Delegation} {book : Book} {action : Option Catalog.Action}
    {masked : Bool} {policy : Policy}
    (assembled : delegation.assemble book action masked = .ok policy) :
    ∃ rules id, delegation.resolve book = .ok rules ∧
      policy.body = delegation.body rules action masked ∧ policy.recomputeId = .ok id ∧
      policy.id = if masked then .mask else id := by
  -- A policy without rules, and one without an identifier of its content, is an error.
  cases resolved : delegation.resolve book with
  | error cause =>
    rw [assemble_of_resolve_eq_error resolved] at assembled
    cases assembled
  | ok rules =>
    rw [assemble_of_resolve resolved, mapError_eq_ok_iff] at assembled
    cases masked with
    | false =>
      obtain ⟨id, computed, rfl⟩ := Policy.make_eq_ok_iff.mp assembled
      exact ⟨rules, id, rfl, rfl, computed, rfl⟩
    | true =>
      obtain ⟨id, computed, rfl⟩ := Policy.preview_eq_ok_iff.mp assembled
      exact ⟨rules, id, rfl, rfl, computed, rfl⟩

/-- There is a policy as soon as the rules are in the book and the hash function is known. -/
theorem exists_assemble {delegation : Delegation} {book : Book} {rules : ResolvedRules}
    {algorithm : Algorithm} (resolved : delegation.resolve book = .ok rules)
    (known : Algorithm.ofName delegation.hashFunction = .ok algorithm)
    (action : Option Catalog.Action) (masked : Bool) :
    ∃ policy, delegation.assemble book action masked = .ok policy := by
  -- A known hash function is all that an identifier of the content takes.
  have computed := Policy.computeId_of_ofName known (delegation.body rules action masked)
    delegation.cost
  rw [assemble_of_resolve resolved]
  cases masked with
  | false => exact ⟨_, mapError_eq_ok_iff.mpr (Policy.make_eq_ok_iff.mpr ⟨_, computed, rfl⟩)⟩
  | true => exact ⟨_, mapError_eq_ok_iff.mpr (Policy.preview_eq_ok_iff.mpr ⟨_, computed, rfl⟩)⟩

variable (delegation : Delegation) (rules : ResolvedRules) (action : Option Catalog.Action)
  (masked : Bool)

/-- The predicate of denial is empty or a term. -/
theorem isTerm_deny_body : (delegation.body rules action masked).deny = .empty ∨
    (delegation.body rules action masked).deny.IsTerm := by
  -- The predicate is the one of the rule of denial, if there is such a rule.
  cases present : rules.deny with
  | none =>
    left
    rw [body, present]
    rfl
  | some rule =>
    right
    rw [body, present]
    exact rule.isTerm_predicate

/-- The predicate of grant is empty or a term. -/
theorem isTerm_grant_body : (delegation.body rules action masked).grant = .empty ∨
    (delegation.body rules action masked).grant.IsTerm := by
  -- The grant combines its terms, which are empty only when there is none.
  by_cases nothing : delegation.grantTerms rules.grant action masked = []
  · left
    rw [body, nothing]
    rfl
  · right
    exact Predicate.isTerm_combine .and nothing fun _ => isTerm_of_mem_grantTerms

/-- The body of a policy that is assembled is well-formed. -/
theorem wellFormed_body : (delegation.body rules action masked).WellFormed where
  deny := (isTerm_deny_body delegation rules action masked).imp_right Predicate.IsTerm.formed
  grant := (isTerm_grant_body delegation rules action masked).imp_right Predicate.IsTerm.formed

variable {delegation action masked} {book : Book} {policy : Policy}

/-- A rule that a policy was assembled under stands in the book. -/
theorem isSome_rule_of_assemble (assembled : delegation.assemble book action masked = .ok policy) :
    (delegation.grantRule.bind book.get?).isSome = delegation.grantRule.isSome := by
  -- An assembly looks its rules up first, and fails when one of them is missing.
  obtain ⟨rules, _, resolved, _⟩ := of_assemble_eq_ok assembled
  obtain ⟨grantRule, present, _⟩ := of_resolve_eq_ok resolved
  rw [← grantRule, present]

/-- The grant of a policy that is assembled combines the possible terms that are there. -/
theorem grant_of_assemble (assembled : delegation.assemble book action masked = .ok policy) :
    policy.body.grant = .combine .and
      (delegation.possibleTerms (delegation.grantRule.bind book.get?) action masked).reduceOption := by
  obtain ⟨rules, _, resolved, sameBody, _⟩ := of_assemble_eq_ok assembled
  obtain ⟨grantRule, _, _⟩ := of_resolve_eq_ok resolved
  rw [sameBody, body, grantTerms_eq, grantRule]

/-- The grant of a policy that is assembled is empty exactly when nothing is there that would
contribute a term. -/
theorem grant_of_assemble_eq_empty_iff
    (assembled : delegation.assemble book action masked = .ok policy) :
    policy.body.grant = .empty ↔ delegation.grantRule = none ∧ delegation.users = [] ∧
      action = none ∧ delegation.cap = none := by
  -- No identifier of a rule means no rule, and an identifier that was resolved means one.
  have noRule : delegation.grantRule.bind book.get? = none ↔ delegation.grantRule = none := by
    rw [← Option.isNone_iff_eq_none, ← Option.isNone_iff_eq_none, ← Option.not_isSome,
      ← Option.not_isSome, isSome_rule_of_assemble assembled]
  have terms : ∀ term ∈ delegation.grantTerms (delegation.grantRule.bind book.get?) action masked,
      term.IsTerm :=
    fun _ => isTerm_of_mem_grantTerms
  rw [grant_of_assemble assembled, ← grantTerms_eq, Predicate.combine_eq_empty_iff .and terms,
    grantTerms_eq_nil_iff, noRule]

/-- The identifier of a policy is confirmed unless the policy is a preview. -/
theorem verifyId_of_assemble (assembled : delegation.assemble book action masked = .ok policy) :
    (masked = false → policy.verifyId = .ok ()) ∧
    (masked = true → ∃ computed, policy.recomputeId = .ok computed ∧
      policy.verifyId = .error (.mismatch .mask computed)) := by
  -- What a policy carries is either the identifier of its content or the mask.
  obtain ⟨_, id, _, _, computed, carried⟩ := of_assemble_eq_ok assembled
  constructor
  · rintro rfl
    have own : policy.id = id := carried
    exact Policy.verifyId_of_recomputeId (own ▸ computed)
  · rintro rfl
    exact ⟨id, computed, Policy.verifyId_of_mask carried computed⟩

/-- The predicates of a policy that is assembled are empty or terms. The grant is empty exactly when
the delegation has nothing that contributes a term, it is the only term where there is one, and else
it joins the terms that are there, in their order. Both readers give the body back from its value.
The identifier of a policy is confirmed, and that of a preview is not. -/
theorem assemble_wellFormed_and_verified
    (assembled : delegation.assemble book action masked = .ok policy) :
    (policy.body.deny = .empty ∨ policy.body.deny.IsTerm) ∧
    (policy.body.grant = .empty ∨ policy.body.grant.IsTerm) ∧
    (policy.body.grant = .empty ↔ delegation.grantRule = none ∧ delegation.users = [] ∧
      action = none ∧ delegation.cap = none) ∧
    (∃ terms : List (Option Predicate),
      terms = delegation.possibleTerms (delegation.grantRule.bind book.get?) action masked ∧
      terms.map Option.isSome = [delegation.grantRule.isSome, !delegation.users.isEmpty,
        action.isSome, delegation.cap.isSome] ∧
      (∀ term, terms.reduceOption = [term] → policy.body.grant = term) ∧
      (2 ≤ terms.reduceOption.length →
        policy.body.grant = .logical .and terms.reduceOption)) ∧
    Body.ofJson policy.body.toJson.sorted = policy.body ∧
    Body.ofJsonStrict policy.body.toJson.sorted = .ok policy.body ∧
    (masked = false → policy.verifyId = .ok ()) ∧
    (masked = true → ∃ computed, policy.recomputeId = .ok computed ∧
      policy.verifyId = .error (.mismatch .mask computed)) := by
  -- The body of the policy is made of terms, and both readers take well-formed bodies.
  obtain ⟨rules, _, _, sameBody, _⟩ := of_assemble_eq_ok assembled
  have formed : policy.body.WellFormed := sameBody ▸ wellFormed_body delegation rules action masked
  refine ⟨?_, ?_, grant_of_assemble_eq_empty_iff assembled, ?_, formed.ofJson_toJson,
    formed.ofJsonStrict_toJson, verifyId_of_assemble assembled⟩
  · rw [sameBody]
    exact isTerm_deny_body delegation rules action masked
  · rw [sameBody]
    exact isTerm_grant_body delegation rules action masked
  · -- The combination of a single term is that term, and that of more of them has a connective.
    refine ⟨_, rfl, ?_, ?_, ?_⟩
    · rw [map_isSome_possibleTerms, isSome_rule_of_assemble assembled]
    · intro term single
      rw [grant_of_assemble assembled, single]
      rfl
    · intro several
      rw [grant_of_assemble assembled, Predicate.combine_of_two_le .and several]

/-- The empty delegation is put into effect by the blank policy. -/
theorem assemble_empty : empty.assemble .empty none false = .ok Policy.blank := by
  -- No rule is asked for, and nothing contributes a term.
  have resolved : empty.resolve .empty = .ok ⟨none, none⟩ := by rfl
  have nothing : empty.body ⟨none, none⟩ none false = .empty := by rfl
  rw [assemble_of_resolve resolved, nothing, mapError_eq_ok_iff]
  exact Policy.make_blank

/-- A book with a cap, a group of the cap, and a group of that group and the cap. -/
def nestedBook : Book :=
  let cap : Rule := ⟨⟨1⟩, .cap 5⟩
  let inner : Rule := ⟨⟨2⟩, .group .all cap []⟩
  .ofList [cap, inner, ⟨⟨3⟩, .group .any inner [cap]⟩]

/-- A delegation under the outer group to two users, one of whom is selected twice. -/
def nested : Delegation :=
  { Delegation.empty with
    grantRule := some ⟨3⟩
    users := [⟨"User 1", "a"⟩, ⟨"User 2", "b"⟩, ⟨"User 3", "a"⟩]
    cap := some 2 }

/-- The grant under nested groups joins four terms, and the policy is read back and confirmed. -/
theorem nested_wellFormed_and_verified :
    ∃ policy, nested.assemble nestedBook (some ⟨"Action 1", "action1"⟩) false = .ok policy ∧
      policy.body.grant = .logical .and [
        .logical .or [capPredicate 5, capPredicate 5],
        .logical .or [.compareWithRequest .eq "public_id" "a" "subject",
          .compareWithRequest .eq "public_id" "b" "subject"],
        .compareWithRequest .eq "action" "action1" "action", capPredicate 2] ∧
      Body.ofJsonStrict policy.body.toJson.sorted = .ok policy.body ∧
      policy.verifyId = .ok () := by
  -- The hash function is known, so that the content has an identifier.
  have known : Algorithm.ofName "sha-256" = .ok .sha256 := by rfl
  have resolved : nested.resolve nestedBook = .ok ⟨nestedBook.get? ⟨3⟩, none⟩ := by rfl
  obtain ⟨policy, assembled⟩ := exists_assemble resolved known (some ⟨"Action 1", "action1"⟩) false
  obtain ⟨_, _, _, ⟨terms, possible, _, _, several⟩, _, read, verified, _⟩ :=
    assemble_wellFormed_and_verified assembled
  refine ⟨policy, assembled, ?_, read, verified rfl⟩
  subst possible
  exact several (by decide)

end Warrant.Delegation
