import Warrant.Proofs.Outcome
import Warrant.Proofs.Policy.Tampering

/-! Previews: no content has the mask for its identifier, and a preview of masked content is the
policy of the content with everything masked that has to be. -/

namespace Warrant

/-- No identifier of a content agrees with the mask. -/
theorem PolicyId.mask_agrees_of_computeId {hashFunction cost : String} {body : Body} {id : PolicyId}
    (computed : Policy.computeId hashFunction body cost = .ok id) :
    PolicyId.mask.agrees id.text = false := by
  -- The identifier is digits of a digest, and the lengths of the two texts are enough to refute.
  obtain ⟨algorithm, _, digits⟩ := Policy.of_computeId_eq_ok computed
  rw [Bool.eq_false_iff]
  intro agree
  rw [agrees, Text.sameIgnoringCase_iff, digits] at agree
  -- The mask has ten characters, and there are two digits for every byte of a digest.
  have lengths := congrArg List.length agree
  simp only [Text.lower, List.length_map, Digest.upperHex, String.toList_ofList,
    Hex.length_upper, Digest.ofText, Algorithm.length_hash] at lengths
  have short : PolicyId.mask.text.toList.length = 10 := by decide
  rw [short] at lengths
  cases algorithm <;> exact absurd lengths (by decide)

namespace Predicate

variable (change : Fact → Fact)

mutual

/-- A predicate in which every fact is changed, also those among obligations. -/
def mapFacts : Predicate → Predicate
  | .empty => .empty
  | .fact leaf => .fact (change leaf)
  | .logical connective operands => .logical connective (mapOperands operands)
  | .comparable comparison left right => .comparable comparison (mapFacts left) (mapFacts right)
  | .obligations duties => .obligations (duties.map change)
  | .conditional condition ifTrue ifFalse =>
    .conditional (mapFacts condition) (ifTrue.map change) (ifFalse.map change)

/-- Operands in which every fact is changed. -/
def mapOperands : List Predicate → List Predicate
  | [] => []
  | operand :: rest => mapFacts operand :: mapOperands rest

end

/-- Operands are changed one by one. -/
theorem mapOperands_eq_map (operands : List Predicate) :
    mapOperands change operands = operands.map (mapFacts change) := by
  -- The recursion is that of the map.
  induction operands with
  | nil => rw [mapOperands, List.map_nil]
  | cons operand rest ih => rw [mapOperands, ih, List.map_cons]

/-- The empty predicate holds no fact. -/
@[simp] theorem mapFacts_empty : mapFacts change .empty = .empty := by
  rw [mapFacts]

/-- The facts of a combination are those of its terms. -/
theorem mapFacts_combine (connective : Connective) (terms : List Predicate) :
    mapFacts change (combine connective terms) =
      combine connective (terms.map (mapFacts change)) := by
  -- The number of terms, which decides on the form, stays the same.
  rcases terms with _ | ⟨first, _ | ⟨second, rest⟩⟩
  · exact mapFacts_empty change
  · rfl
  · rw [combine, mapFacts, mapOperands_eq_map]
    · rfl
    · simp
    · simp

end Predicate

/-- A fact as a preview shows it: the mask stands for the identity of a user. -/
def Fact.masked (fact : Fact) : Fact :=
  if fact.type = "public_id" then { fact with value := PolicyId.maskText } else fact

/-- A reference to the request does not tell who anyone is. -/
theorem Fact.masked_ofRequest (field : String) : (Fact.ofRequest field).masked = .ofRequest field := by
  -- The types begin with different letters.
  have different : (Fact.ofRequest field).type ≠ "public_id" := by
    intro same
    have letters := congrArg String.toList same
    simp [ofRequest, String.toList_append] at letters
  rw [masked, if_neg different]

namespace Predicate

/-- A predicate as a preview shows it. -/
def masked (predicate : Predicate) : Predicate :=
  predicate.mapFacts Fact.masked

/-- In a comparison with the request only the fact is masked. -/
theorem masked_compareWithRequest (comparison : Comparison) (type value field : String) :
    (compareWithRequest comparison type value field).masked =
      .comparable comparison (.fact (Fact.masked ⟨type, value⟩)) (.fact (.ofRequest field)) := by
  rw [masked, compareWithRequest, mapFacts, mapFacts, mapFacts, Fact.masked_ofRequest]

/-- A comparison that is not about the identity of a user is shown as it is. -/
theorem masked_compareWithRequest_of_ne (comparison : Comparison) {type : String}
    (value field : String) (other : type ≠ "public_id") :
    (compareWithRequest comparison type value field).masked =
      compareWithRequest comparison type value field := by
  rw [masked_compareWithRequest, Fact.masked, if_neg other]
  rfl

/-- Predicates that are shown as they are make up a list that is shown as it is. -/
theorem map_masked_map {α : Type} {predicate : α → Predicate}
    (shown : ∀ item, (predicate item).masked = predicate item) (items : List α) :
    (items.map predicate).map masked = items.map predicate := by
  rw [List.map_map]
  exact List.map_congr_left fun item _ => shown item

end Predicate

/-- A body as a preview shows it. -/
def Body.masked (body : Body) : Body where
  obligationsOnDeny := body.obligationsOnDeny.map (List.map Fact.masked)
  obligationsOnGrant := body.obligationsOnGrant.map (List.map Fact.masked)
  deny := body.deny.masked
  grant := body.grant.masked

namespace Policy

/-- A policy as a preview shows it: without its identifier, and without the users. -/
def masked (policy : Policy) : Policy :=
  { policy with id := .mask, body := policy.body.masked }

/-- A policy is made exactly when its content has an identifier, which it carries. -/
theorem make_eq_ok_iff {hashFunction cost : String} {body : Body} {policy : Policy} :
    make hashFunction body cost = .ok policy ↔
      ∃ id, computeId hashFunction body cost = .ok id ∧ policy = ⟨hashFunction, id, body, cost⟩ := by
  -- Making a policy is computing its identifier and storing it.
  rw [make, bind_eq_ok_iff]
  constructor
  · rintro ⟨id, computed, made⟩
    exact ⟨id, computed, (Except.ok.inj made).symm⟩
  · rintro ⟨id, computed, rfl⟩
    exact ⟨id, computed, rfl⟩

/-- A preview is given exactly when the content has an identifier, which it does not carry. -/
theorem preview_eq_ok_iff {hashFunction cost : String} {body : Body} {policy : Policy} :
    preview hashFunction body cost = .ok policy ↔
      ∃ id, computeId hashFunction body cost = .ok id ∧
        policy = ⟨hashFunction, .mask, body, cost⟩ := by
  -- A preview looks the hash function up, on which alone it depends whether there is an identifier.
  rw [preview, bind_eq_ok_iff]
  constructor
  · rintro ⟨algorithm, known, shown⟩
    exact ⟨_, computeId_of_ofName known body cost, (Except.ok.inj shown).symm⟩
  · rintro ⟨id, computed, rfl⟩
    obtain ⟨algorithm, known, _⟩ := of_computeId_eq_ok computed
    exact ⟨algorithm, known, rfl⟩

/-- The mask is never confirmed, although the content has an identifier. -/
theorem verifyId_of_mask {policy : Policy} {computed : PolicyId} (hidden : policy.id = .mask)
    (recomputed : policy.recomputeId = .ok computed) :
    policy.verifyId = .error (.mismatch .mask computed) := by
  -- The mask agrees with no digest, so that the comparison fails after the identifier was computed.
  have disagree : PolicyId.mask.agrees computed.text = false :=
    PolicyId.mask_agrees_of_computeId recomputed
  simp [verifyId, recomputed, hidden, disagree]

/-- The preview of a masked content is the policy of the content as a preview shows it. -/
theorem preview_masked (hashFunction : String) (body : Body) (cost : String) :
    preview hashFunction body.masked cost = (make hashFunction body cost).map masked := by
  -- Both fail on the name of the hash function, and on nothing else.
  rw [preview, make]
  cases known : Algorithm.ofName hashFunction with
  | error cause =>
    rw [(computeId_eq_error_iff hashFunction body cost cause).mpr known]
    rfl
  | ok algorithm =>
    rw [computeId_of_ofName known]
    rfl

end Policy

end Warrant
