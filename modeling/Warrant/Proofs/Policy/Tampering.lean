import Warrant.Policy.Reader
import Warrant.Proofs.Policy.Identity
import Warrant.Proofs.Policy.MemberOrder

/-! A document that carries the identifier of a policy is found out, unless it is read like that
policy. -/

namespace Warrant.Policy

/-- The body that a document is read to have, in which whatever is missing or malformed is empty. -/
def readBody (json : Json) : Body :=
  ((json.member? "policy_object").map Body.ofJson).getD .empty

/-- A document is read like a policy, apart from the identifier: it names the same hash function and
the same cost, where a cost that is missing or no string stands for an empty one, and its body is
read as the same body. -/
structure ReadsLike (json : Json) (policy : Policy) : Prop where
  hashFunction : json.member? "hash_function" = policy.toJson.sorted.member? "hash_function"
  cost : json.member? "cost" = policy.toJson.sorted.member? "cost" ∨
    policy.cost = "" ∧ textMember? json "cost" = none
  body : readBody json = policy.body

/-- Policies with the same content and the same identifier are the same. -/
theorem eq_of_content_eq {a b : Policy} (sameId : a.id = b.id)
    (same : a.hashFunction = b.hashFunction ∧ a.body = b.body ∧ a.cost = b.cost) : a = b := by
  cases a
  cases b
  simp_all

/-- No object in a policy repeats a key. -/
theorem distinctKeys_toJson (policy : Policy) : policy.toJson.DistinctKeys := by
  -- The members are three strings and the body.
  have distinct : ["hash_function", "policy_id", "policy_object", "cost"].Nodup := by decide
  refine ⟨distinct, ?_⟩
  simp [Json.MembersDistinctKeys, Json.DistinctKeys, PolicyId.toJson,
    policy.body.hasPlainKeys_toJson.distinctKeys]

/-- The strings in the value of a policy. -/
theorem member?_sorted_toJson (policy : Policy) :
    policy.toJson.sorted.member? "hash_function" = some (.str policy.hashFunction) ∧
      policy.toJson.sorted.member? "policy_id" = some (.str policy.id.text) ∧
      policy.toJson.sorted.member? "cost" = some (.str policy.cost) := by
  -- Members are found in the value like in the declared order.
  have distinct := policy.distinctKeys_toJson
  rw [Json.member?_sorted distinct, Json.member?_sorted distinct, Json.member?_sorted distinct]
  simp [toJson, Json.member?, lookup_cons_eq_ite, PolicyId.toJson, Json.sorted]

/-- A member is read as a text exactly when it is that string. -/
theorem textMember?_eq_some_iff {json : Json} {key text : String} :
    textMember? json key = some text ↔ json.member? key = some (.str text) :=
  Json.bind_text?_eq_some_iff

/-- A policy that was made carries the identifier of its content. -/
theorem recomputeId_of_make {hashFunction cost : String} {body : Body} {policy : Policy}
    (made : make hashFunction body cost = .ok policy) : policy.recomputeId = .ok policy.id := by
  -- Without an identifier there is no policy.
  cases computed : computeId hashFunction body cost with
  | error cause =>
    rw [make, computed] at made
    cases made
  | ok id =>
    rw [make, computed] at made
    cases made
    exact computed

/-- A policy whose identifier is the one of its content is confirmed. -/
theorem verifyId_of_recomputeId {policy : Policy} (same : policy.recomputeId = .ok policy.id) :
    policy.verifyId = .ok () := by
  simp [verifyId, same, PolicyId.agrees_self]

/-- A policy is confirmed when its content has an identifier that agrees with the one it carries. -/
theorem agrees_of_verifyId {policy : Policy} (confirmed : policy.verifyId = .ok ()) :
    ∃ computed, policy.recomputeId = .ok computed ∧ policy.id.agrees computed.text = true := by
  -- An unknown function and a disagreement are the two ways to fail.
  unfold verifyId at confirmed
  split at confirmed
  · cases confirmed
  · rename_i computed same
    split at confirmed
    · exact ⟨computed, same, ‹_›⟩
    · cases confirmed

/-- A document with an identifier is read as what it says under that identifier, without a look at
whether it is the right one. -/
theorem of_ofJson_eq_ok {json : Json} {id : String} {policy : Policy}
    (named : json.member? "policy_id" = some (.str id)) (read : ofJson json = .ok policy) :
    json.member? "hash_function" = some (.str policy.hashFunction) ∧ policy.id = ⟨id⟩ ∧
      policy.body = readBody json ∧ policy.cost = (textMember? json "cost").getD "" := by
  -- Only an object that names its hash function is read at all.
  have carried := textMember?_eq_some_iff.2 named
  unfold ofJson at read
  split at read
  · cases read
  · cases read
  · rename_i hashFunction _ found
    rw [carried] at read
    simp only [Except.ok.injEq] at read
    subst read
    exact ⟨textMember?_eq_some_iff.1 found, rfl, rfl, rfl⟩

/-- A cost is read as the one of a policy when it is the same member, or stands for an empty one. -/
theorem getD_textMember?_eq_iff {json : Json} {cost : String} :
    (textMember? json "cost").getD "" = cost ↔
      json.member? "cost" = some (.str cost) ∨ cost = "" ∧ textMember? json "cost" = none := by
  -- Without a string the cost is the empty one.
  rw [← textMember?_eq_some_iff]
  cases textMember? json "cost" with
  | none => simp [eq_comm]
  | some text => simp

/-- What was read from a document is the policy whose identifier it carries exactly when it is read
like that policy. -/
theorem eq_iff_readsLike {json : Json} {policy other : Policy}
    (sameId : json.member? "policy_id" = policy.toJson.sorted.member? "policy_id")
    (read : ofJson json = .ok other) : other = policy ↔ ReadsLike json policy := by
  -- The identifier is the carried one, and the other fields are the readings of the members.
  obtain ⟨hashFunction, id, cost⟩ := policy.member?_sorted_toJson
  obtain ⟨found, carried, body, readCost⟩ := of_ofJson_eq_ok (sameId.trans id) read
  constructor
  · rintro rfl
    refine ⟨found.trans hashFunction.symm, ?_, body.symm⟩
    rw [cost]
    exact getD_textMember?_eq_iff.1 readCost.symm
  · intro alike
    have sameName := found.symm.trans (alike.hashFunction.trans hashFunction)
    rw [Option.some.injEq, Json.str.injEq] at sameName
    have sameCost := alike.cost
    rw [cost] at sameCost
    have sameCost := readCost.trans (getD_textMember?_eq_iff.2 sameCost)
    exact eq_of_content_eq carried ⟨sameName, body.trans alike.body, sameCost⟩

/-- A document that carries the identifier of a policy and is not read like it does not verify,
unless the canonical texts of the two collide; and one that is read like it is the policy. -/
theorem tampering_found_out {hashFunction cost : String} {body : Body} {policy other : Policy}
    {json : Json} (made : make hashFunction body cost = .ok policy)
    (sameId : json.member? "policy_id" = policy.toJson.sorted.member? "policy_id")
    (read : ofJson json = .ok other) :
    (¬ ReadsLike json policy → (∃ error, other.verifyId = .error error) ∨
      Collision policy.hashFunction other.hashFunction policy.body other.body policy.cost
        other.cost) ∧
    (ReadsLike json policy → other = policy ∧ other.verifyId = .ok ()) := by
  -- The identifier of the policy is the digest of its own content.
  have identified := recomputeId_of_make made
  refine ⟨fun different => ?_, fun alike => ?_⟩
  · -- An identifier that verifies is that of both contents, which are different.
    cases verified : other.verifyId with
    | error error => exact .inl ⟨error, rfl⟩
    | ok =>
      obtain ⟨computed, recomputed, agree⟩ := agrees_of_verifyId verified
      obtain ⟨_, carried, _⟩ := of_ofJson_eq_ok (sameId.trans policy.member?_sorted_toJson.2.1) read
      have sameCarried : other.id = policy.id := carried
      rw [sameCarried] at agree
      refine .inr (collision_of_agrees identified recomputed agree fun same => different ?_)
      rw [← eq_iff_readsLike sameId read]
      obtain ⟨name, body, cost⟩ := same
      exact eq_of_content_eq sameCarried ⟨name.symm, body.symm, cost.symm⟩
  · obtain rfl := (eq_iff_readsLike sameId read).2 alike
    exact ⟨rfl, verifyId_of_recomputeId identified⟩

/-- The policy of the empty body without a cost. -/
def blank : Policy :=
  ⟨"sha-256", ⟨"5281BBE1428DB150935F17DA91E1650FCC2D15DA9F1748BE8CDB64B5892D0132"⟩, .empty, ""⟩

/-- The identifier of the blank policy is the digest of its payload. -/
theorem make_blank : make "sha-256" Body.empty "" = .ok blank := by
  -- The digest of one short text is computed.
  have known : Algorithm.ofName "sha-256" = .ok .sha256 := by rfl
  have digits : (Digest.ofText .sha256
      (payload "sha-256" Body.empty "").canonicalText).upperHex = blank.id.text := by
    decide +kernel
  rw [make, computeId_of_ofName known, digits]
  rfl

/-- The blank policy with another cost. -/
def charged : Json :=
  .obj [("cost", .str "1.0"), ("hash_function", .str "sha-256"),
    ("policy_id", .str blank.id.text), ("policy_object", Body.empty.toJson)]

/-- A changed cost is found out. -/
theorem charged_found_out : ∃ other, ofJson charged = .ok other ∧
    ((∃ error, other.verifyId = .error error) ∨ Collision blank.hashFunction other.hashFunction
      blank.body other.body blank.cost other.cost) := by
  -- Only the cost was touched, so that the identifier stands where it stood.
  have sameId : charged.member? "policy_id" = blank.toJson.sorted.member? "policy_id" := by
    decide
  have different : ¬ ReadsLike charged blank := by
    intro alike
    exact absurd alike.cost (by decide)
  exact ⟨⟨"sha-256", blank.id, Body.ofJson Body.empty.toJson, "1.0"⟩, rfl,
    (tampering_found_out make_blank sameId rfl).1 different⟩

/-- The blank policy with a note in its body, which no reader looks at. -/
def annotated : Json :=
  .obj [("cost", .str ""), ("hash_function", .str "sha-256"), ("policy_id", .str blank.id.text),
    ("policy_object", .obj [("note", .str "every action is granted"), ("obligation_deny", .obj []),
      ("obligation_grant", .obj []), ("policy_doc", .obj []), ("policy_goc", .obj [])])]

/-- A note in the body changes the document and is not found out. -/
theorem annotated_not_found_out :
    make "sha-256" Body.empty "" = .ok blank ∧
      annotated.member? "policy_id" = blank.toJson.sorted.member? "policy_id" ∧
      annotated.member? "policy_object" ≠ blank.toJson.sorted.member? "policy_object" ∧
      ofJson annotated = .ok blank ∧ blank.verifyId = .ok () ∧
      ¬ Collision blank.hashFunction blank.hashFunction blank.body blank.body blank.cost
        blank.cost := by
  -- The reader never looks at the note, so that it gives the policy as it was made.
  have unread : ofJson annotated = .ok blank := by rfl
  refine ⟨make_blank, by decide, by decide, unread, ?_, Collision.irrefl _ _ _⟩
  exact verifyId_of_recomputeId (recomputeId_of_make make_blank)

end Warrant.Policy
