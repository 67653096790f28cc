import Warrant.Hash.Digest
import Warrant.Identity.PolicyId
import Warrant.Json.Canonical
import Warrant.Policy.Body

/-! Policies, whose identifier is the digest of their content. -/

namespace Warrant

/-- A policy with the identifier that it carries, which need not be the one of its content. -/
structure Policy where
  hashFunction : String
  id : PolicyId
  body : Body
  cost : String
deriving DecidableEq

/-- Why an identifier could not be confirmed. -/
inductive IdentityError where
  | unsupported (cause : UnsupportedAlgorithm)
  | mismatch (declared computed : PolicyId)
deriving DecidableEq

/-- The complaint about an identifier. -/
def IdentityError.message : IdentityError → String
  | .unsupported cause => cause.message
  | .mismatch declared computed =>
    "policy id mismatch: declared " ++ declared.text ++ ", computed " ++ computed.text

namespace Policy

/-- The hash function of policies that name none. -/
def defaultHashFunction : String := "sha-256"

/-- What the identifier of a policy is a digest of. -/
def payload (hashFunction : String) (body : Body) (cost : String) : Json :=
  .obj [("hash_function", .str hashFunction), ("policy_object", body.toJson), ("cost", .str cost)]

/-- A payload holds no float. -/
theorem firstFloat?_payload (hashFunction : String) (body : Body) (cost : String) :
    (payload hashFunction body cost).firstFloat? = none := by
  -- Beside the body there are two strings.
  simp [payload, Json.firstFloat?, Json.firstFloatMember?]

/-- Every payload has a canonical text. -/
theorem canonical_payload (hashFunction : String) (body : Body) (cost : String) :
    (payload hashFunction body cost).canonical =
      .ok (payload hashFunction body cost).canonicalText :=
  Json.canonical_eq_ok_iff.mpr ⟨firstFloat?_payload hashFunction body cost, rfl⟩

/-- The identifier of a content: the capital digits of the digest of its canonical text. Of the two
steps that can fail only the first ever does. -/
def computeId (hashFunction : String) (body : Body) (cost : String) :
    Except UnsupportedAlgorithm PolicyId := do
  let algorithm ← Algorithm.ofName hashFunction
  match outcome : (payload hashFunction body cost).canonical with
  | .ok text => return ⟨(Digest.ofText algorithm text).upperHex⟩
  | .error _ => nomatch (canonical_payload hashFunction body cost).symm.trans outcome

/-- The policy with the identifier of its content. -/
def make (hashFunction : String) (body : Body) (cost : String) :
    Except UnsupportedAlgorithm Policy := do
  let id ← computeId hashFunction body cost
  return ⟨hashFunction, id, body, cost⟩

/-- The policy with the mask for an identifier. Its hash function has to be supported all the same,
so that a preview fails whenever the policy itself would. -/
def preview (hashFunction : String) (body : Body) (cost : String) :
    Except UnsupportedAlgorithm Policy := do
  let _ ← Algorithm.ofName hashFunction
  return ⟨hashFunction, .mask, body, cost⟩

/-- Whether the policy must not leave the device. -/
def isPreview (policy : Policy) : Bool :=
  policy.id.isMask

/-- The identifier of the content. -/
def recomputeId (policy : Policy) : Except UnsupportedAlgorithm PolicyId :=
  computeId policy.hashFunction policy.body policy.cost

/-- Confirms the carried identifier up to the case of its digits. -/
def verifyId (policy : Policy) : Except IdentityError Unit :=
  match policy.recomputeId with
  | .error cause => .error (.unsupported cause)
  | .ok computed =>
    if policy.id.agrees computed.text then .ok () else .error (.mismatch policy.id computed)

/-- The members of a policy in their declared order. -/
def toJson (policy : Policy) : Json :=
  .obj [("hash_function", .str policy.hashFunction), ("policy_id", policy.id.toJson),
    ("policy_object", policy.body.toJson), ("cost", .str policy.cost)]

end Policy

end Warrant
