import Warrant.Proofs.Json.DocumentValue
import Warrant.Proofs.Policy.BodyReading
import Warrant.Proofs.Policy.Masking

/-! Policies read back from their own texts: what the readers lose is seen in the identifier. -/

namespace Warrant

open Json (IsExact ItemsExact MembersExact)

/-- A fact holds no number. -/
theorem Fact.isExact_toJson (fact : Fact) : fact.toJson.IsExact := by
  simp [toJson, IsExact, MembersExact]

/-- Obligations hold no number. -/
theorem Obligations.isExact_toJson (obligations : Obligations) : obligations.toJson.IsExact := by
  -- A fact holds texts only, so that it is enough to walk the list.
  have items : ItemsExact (obligations.map Fact.toJson) := by
    induction obligations with
    | nil => trivial
    | cons fact rest ih => exact ⟨fact.isExact_toJson, ih⟩
  simp [toJson, IsExact, MembersExact, items]

namespace Predicate

/-- An operation holds the numbers of its attributes. -/
theorem isExact_operation (name : String) {attributes : List Json} (exact : ItemsExact attributes) :
    (operation name attributes).IsExact := by
  simp [operation, IsExact, MembersExact, exact]

mutual

/-- A predicate holds no number. -/
theorem isExact_toJson : ∀ predicate : Predicate, predicate.toJson.IsExact
  -- By induction on the predicate, of which three shapes are operations.
  | .empty => by simp [toJson, IsExact, MembersExact]
  | .fact leaf => by rw [toJson]; exact leaf.isExact_toJson
  | .logical connective operands => by
    rw [toJson]
    exact isExact_operation connective.name (itemsExact_operandsToJson operands)
  | .comparable comparison left right => by
    rw [toJson]
    exact isExact_operation comparison.name ⟨isExact_toJson left, isExact_toJson right, trivial⟩
  | .obligations list => by rw [toJson]; exact list.isExact_toJson
  | .conditional condition ifTrue ifFalse => by
    rw [toJson]
    exact isExact_operation "if"
      ⟨isExact_toJson condition, ifTrue.isExact_toJson, ifFalse.isExact_toJson, trivial⟩

/-- Operands hold no number. -/
theorem itemsExact_operandsToJson : ∀ operands : List Predicate,
    ItemsExact (operandsToJson operands)
  | [] => trivial
  | operand :: rest => ⟨isExact_toJson operand, itemsExact_operandsToJson rest⟩

end

end Predicate

namespace Body

/-- A body holds no number. -/
theorem isExact_toJson (body : Body) : body.toJson.IsExact := by
  -- Obligations that are left open are an object without members.
  have obligations : ∀ list, (obligationsToJson list).IsExact := by
    intro list
    cases list with
    | none => trivial
    | some list => exact list.isExact_toJson
  exact ⟨obligations _, obligations _, body.deny.isExact_toJson, body.grant.isExact_toJson, trivial⟩

/-- Whatever value a body is read from, it is well-formed. -/
theorem wellFormed_ofJson (json : Json) : (ofJson json).WellFormed := by
  -- A member that is no predicate counts as empty.
  have slot : ∀ name, ((filled? json name).bind Predicate.ofJson?).getD .empty = .empty ∨
      (((filled? json name).bind Predicate.ofJson?).getD .empty).WellFormed := by
    intro name
    cases read : (filled? json name).bind Predicate.ofJson? with
    | none => exact .inl rfl
    | some predicate =>
      obtain ⟨value, _, read⟩ := Option.bind_eq_some_iff.mp read
      exact .inr (Predicate.wellFormed_of_ofJson? value read)
  exact ⟨slot .deny, slot .grant⟩

/-- A body is read back from its value exactly when it is well-formed. -/
theorem ofJson_toJson_eq_iff (body : Body) :
    ofJson body.toJson.sorted = body ↔ body.WellFormed :=
  ⟨fun same => same ▸ wellFormed_ofJson _, WellFormed.ofJson_toJson⟩

end Body

namespace Policy

/-- A policy holds no number. -/
theorem isExact_toJson (policy : Policy) : policy.toJson.IsExact :=
  ⟨trivial, trivial, policy.body.isExact_toJson, trivial, trivial⟩

/-- A policy with the body that is read from its value. -/
def reread (policy : Policy) : Policy :=
  { policy with body := Body.ofJson policy.body.toJson.sorted }

/-- A policy is reread as itself exactly when its body is well-formed. -/
theorem reread_eq_iff (policy : Policy) : policy.reread = policy ↔ policy.body.WellFormed := by
  rw [← Body.ofJson_toJson_eq_iff]
  exact ⟨congrArg Policy.body, fun same => eq_of_content_eq rfl ⟨rfl, same, rfl⟩⟩

/-- All of a policy but its body is read as it is. -/
theorem ofJson_toJson (policy : Policy) : ofJson policy.toJson.sorted = .ok policy.reread := by
  -- Every member of the value is found under its own name.
  obtain ⟨hashFunction, id, cost⟩ := policy.member?_sorted_toJson
  have body : policy.toJson.sorted.member? "policy_object" = some policy.body.toJson.sorted := by
    rw [Json.member?_sorted policy.distinctKeys_toJson]
    simp [toJson, Json.member?, lookup_cons_eq_ite]
  rw [ofJson, textMember?_eq_some_iff.mpr hashFunction, textMember?_eq_some_iff.mpr id,
    textMember?_eq_some_iff.mpr cost, body]
  rfl

/-- The compact text of a policy is read up to the depth of texts. -/
theorem parse_compact (policy : Policy) : parse policy.toJson.compact =
    if policy.toJson.depth ≤ Json.maxDepth then .ok policy.reread else .error .text := by
  -- Compact texts are read back as they are, up to a depth, and the policy is read from the value.
  rw [parse, Json.parse?_compact policy.isExact_toJson]
  by_cases fits : policy.toJson.depth ≤ Json.maxDepth
  · rw [if_pos fits, if_pos fits]
    exact policy.ofJson_toJson
  · rw [if_neg fits, if_neg fits]

/-- What the reader loses of a policy is seen in its identifier, unless two canonical texts
collide. -/
theorem verifyId_reread {hashFunction cost : String} {body : Body} {policy : Policy}
    (made : make hashFunction body cost = .ok policy) (lost : policy.reread ≠ policy) :
    (∃ computed, policy.reread.verifyId = .error (.mismatch policy.id computed)) ∨
      Collision policy.hashFunction policy.reread.hashFunction policy.body policy.reread.body
        policy.cost policy.reread.cost := by
  -- What the identifiers say of the two contents decides between the two outcomes.
  have identified := recomputeId_of_make made
  -- The hash function is the same, so that the body that was read has an identifier as well.
  obtain ⟨algorithm, known, _⟩ := of_computeId_eq_ok identified
  obtain ⟨computed, recomputed⟩ : ∃ computed, policy.reread.recomputeId = .ok computed :=
    ⟨_, computeId_of_ofName known _ _⟩
  by_cases agree : policy.id.agrees computed.text = true
  · -- The contents differ in the body, and yet their identifiers agree.
    right
    refine collision_of_agrees identified recomputed agree fun same => lost ?_
    exact eq_of_content_eq rfl ⟨rfl, same.2.1.symm, rfl⟩
  · left
    refine ⟨computed, ?_⟩
    rw [verifyId, recomputed]
    exact if_neg agree

/-- A policy that was made is read back from its compact text exactly when its predicates are empty
or well-formed and the text nests at most 127 levels. A deeper text is no policy, and otherwise the
policy that is read does not verify, unless the canonical texts of the two collide. -/
theorem parse_compact_of_make {hashFunction cost : String} {body : Body} {policy : Policy}
    (made : make hashFunction body cost = .ok policy) :
    (parse policy.toJson.compact = .ok policy ↔
      policy.body.WellFormed ∧ policy.toJson.depth ≤ 127) ∧
    (127 < policy.toJson.depth → parse policy.toJson.compact = .error .text) ∧
    (¬ policy.body.WellFormed → policy.toJson.depth ≤ 127 →
      ∃ other, parse policy.toJson.compact = .ok other ∧
        ((∃ computed, other.verifyId = .error (.mismatch policy.id computed)) ∨
          Collision policy.hashFunction other.hashFunction policy.body other.body policy.cost
            other.cost)) := by
  -- What is read from the text is the reread policy, which is the policy itself if well-formed.
  rw [parse_compact, Json.maxDepth, ← reread_eq_iff]
  refine ⟨?_, fun deep => if_neg (Nat.not_le.mpr deep), fun lost fits => ?_⟩
  · by_cases fits : policy.toJson.depth ≤ 127
    · simp [fits]
    · simp [fits]
  · exact ⟨policy.reread, if_pos fits, verifyId_reread made lost⟩

/-- A body with a connective that joins nothing. -/
def lossyBody : Body := { Body.empty with deny := .logical .and [] }

/-- The blank policy is read back, and a policy on a connective without operands is not, although
its text can be read. -/
theorem parse_compact_samples :
    (make "sha-256" .empty "" = .ok blank ∧ parse blank.toJson.compact = .ok blank) ∧
    ∃ policy other, make "sha-256" lossyBody "" = .ok policy ∧
      parse policy.toJson.compact = .ok other ∧
      ((∃ computed, other.verifyId = .error (.mismatch policy.id computed)) ∨
        Collision policy.hashFunction other.hashFunction policy.body other.body policy.cost
          other.cost) := by
  -- One policy has no predicates at all, and the other one that a reader refuses.
  have known : Algorithm.ofName "sha-256" = .ok .sha256 := by rfl
  constructor
  · have formed : blank.body.WellFormed := ⟨.inl rfl, .inl rfl⟩
    exact ⟨make_blank, (parse_compact_of_make make_blank).1.mpr ⟨formed, by decide⟩⟩
  · -- The connective is written, but a reader wants two operands for it.
    have made := make_eq_ok_iff.mpr ⟨_, computeId_of_ofName known lossyBody "", rfl⟩
    have lossy : ¬ lossyBody.WellFormed := by
      intro formed
      rcases formed.deny with empty | formed
      · cases empty
      · cases formed with
        | logical enough => exact absurd enough (by decide)
    obtain ⟨other, read, found⟩ := (parse_compact_of_make made).2.2 lossy (by decide)
    exact ⟨_, other, made, read, found⟩

end Policy

end Warrant
