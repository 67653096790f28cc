import Warrant.Policy.Reader
import Warrant.Signature.Key

/-! Requests to a policy store: signed policies to keep, and devices to clear. -/

namespace Warrant

/-- A policy on behalf of its owner, with the signature of its identifier. -/
structure DelegateRequest where
  owner : String
  device : String
  policy : Policy
  signature : String
deriving DecidableEq

/-- Why a request cannot be made or does not hold. -/
inductive RequestError where
  | preview (id : PolicyId)
  | crypto (cause : CryptoError)
  | identity (cause : IdentityError)
deriving DecidableEq

/-- The complaint about a request. -/
def RequestError.message : RequestError → String
  | .preview id => "policy " ++ id.text ++ " is a masked preview and cannot be sent"
  | .crypto cause => cause.message
  | .identity cause => cause.message

namespace DelegateRequest

/-- The request for a policy, which must not be a preview, signed with the key of its owner. -/
def sign (policy : Policy) (owner device : String) (pair : KeyPair) :
    Except RequestError DelegateRequest :=
  -- A preview has no identifier that could be signed.
  if policy.isPreview then .error (.preview policy.id)
  else
    match pair.sign policy.id with
    | .ok signature => .ok ⟨owner, device, policy, signature.base64⟩
    | .error cause => .error (.crypto cause)

/-- Checks the signature of a request, and then the identifier of its policy. -/
def verify (request : DelegateRequest) (key : PublicKey) : Except RequestError Unit := do
  let signature ← (Signature.ofBase64 request.signature).mapError .crypto
  (signature.verify key request.policy.id).mapError .crypto
  request.policy.verifyId.mapError .identity

/-- The members of a request in their declared order. -/
def toJson (request : DelegateRequest) : Json :=
  .obj [("owner_id", .str request.owner), ("device_id", .str request.device),
    ("policy", request.policy.toJson), ("signature", .str request.signature)]

/-- Reads a request. Its policy nests one level less than the whole. -/
def ofDocument? (document : Document) : Option DelegateRequest := do
  match ← document.fields? .ignored ["owner_id", "device_id", "policy", "signature"] with
  | [some owner, some device, some policy, some signature] =>
    let owner ← owner.text?
    let device ← device.text?
    let policy ← Policy.ofDocument? (Json.maxDepth - 1) policy
    let signature ← signature.text?
    return ⟨owner, device, policy, signature⟩
  | _ => none

end DelegateRequest

/-- A request to drop every policy of a device. -/
structure ClearRequest where
  device : String
deriving DecidableEq

namespace ClearRequest

/-- The object with the device. -/
def toJson (request : ClearRequest) : Json :=
  .obj [("device_id", .str request.device)]

/-- Reads a request. -/
def ofDocument? (document : Document) : Option ClearRequest := do
  match ← document.fields? .ignored ["device_id"] with
  | [some device] => return ⟨← device.text?⟩
  | _ => none

end ClearRequest

end Warrant
