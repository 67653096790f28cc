import Warrant.Exchange.Request
import Warrant.Proofs.Delegation.Assembly
import Warrant.Proofs.Signature.Base64Text

/-! Requests for policies: whatever is no preview can be signed, and a signed request holds exactly
when the identifier of its policy does. -/

namespace Warrant

/-- Whether the public key of a pair accepts the signature that the pair makes on a message. -/
def KeyPair.acceptsOwn (pair : KeyPair) (message : List UInt8) : Bool :=
  (Ed25519.point? pair.publicKey.bytes).any fun point =>
    Ed25519.accepts pair.publicKey.bytes point message (Ed25519.signBytes pair.seed message)

/-- Every identifier but the mask is signed. -/
theorem KeyPair.sign_eq_ok_iff {pair : KeyPair} {id : PolicyId} {signature : Signature} :
    pair.sign id = .ok signature ↔
      id ≠ .mask ∧ signature.bytes = Ed25519.signBytes pair.seed (utf8 id.text.toList) := by
  -- The pair looks at the mask, and at nothing else that an identifier can be.
  rw [sign, PolicyId.isMask]
  by_cases hidden : id = .mask
  · simp [hidden]
  · -- A signature is its bytes.
    cases signature
    simp [hidden, eq_comm]

/-- A signature holds under a key on the curve that accepts it. -/
theorem Signature.verify_of_accepts {signature : Signature} {key : PublicKey} {id : PolicyId}
    {point : Curve.Point} (onCurve : Ed25519.point? key.bytes = some point)
    (accepted : Ed25519.accepts key.bytes point (utf8 id.text.toList) signature.bytes = true) :
    signature.verify key id = .ok () := by
  -- The key has one point on the curve, which is the one that accepts.
  unfold verify
  split
  next offCurve =>
    rw [onCurve] at offCurve
    cases offCurve
  next other sameCurve =>
    rw [onCurve, Option.some.injEq] at sameCurve
    rw [← sameCurve, if_pos accepted]

/-- A signature holds under the key of its pair, if that key accepts what the pair signs. -/
theorem Signature.verify_of_sign {pair : KeyPair} {id : PolicyId} {signature : Signature}
    (signed : pair.sign id = .ok signature)
    (accepted : pair.acceptsOwn (utf8 id.text.toList) = true) :
    signature.verify pair.publicKey id = .ok () := by
  -- What the pair signs is the text of the identifier.
  obtain ⟨_, bytes⟩ := KeyPair.sign_eq_ok_iff.mp signed
  obtain ⟨point, onCurve, accepts⟩ := (Option.any_eq_true _ _).mp accepted
  exact verify_of_accepts onCurve (bytes ▸ accepts)

/-- An identifier that is confirmed is not the mask. -/
theorem Policy.id_ne_mask_of_verifyId {policy : Policy} (confirmed : policy.verifyId = .ok ()) :
    policy.id ≠ .mask := by
  -- No identifier that is computed agrees with the mask.
  intro hidden
  obtain ⟨computed, recomputed, agree⟩ := agrees_of_verifyId confirmed
  rw [hidden, PolicyId.mask_agrees_of_computeId recomputed] at agree
  exact Bool.false_ne_true agree

namespace DelegateRequest

variable {policy : Policy} {owner device : String} {pair : KeyPair} {request : DelegateRequest}

/-- A request is signed exactly for policies that are no previews. It holds the policy as it is and
the text of the signature of the identifier. -/
theorem sign_eq_ok_iff : sign policy owner device pair = .ok request ↔
    ∃ signature, pair.sign policy.id = .ok signature ∧
      request = ⟨owner, device, policy, signature.base64⟩ := by
  -- The request is refused for the mask before the pair is asked.
  rw [sign, Policy.isPreview]
  by_cases hidden : policy.id.isMask = true
  · -- The pair refuses the mask as well.
    simp [hidden, KeyPair.sign]
  · rw [if_neg hidden]
    cases pair.sign policy.id <;> simp [eq_comm]

/-- Whatever is no preview is signed. -/
theorem exists_sign_iff :
    (∃ request, sign policy owner device pair = .ok request) ↔ policy.id ≠ .mask := by
  -- The two checks for the mask agree, and without it there is a signature.
  constructor
  · rintro ⟨request, signed⟩
    obtain ⟨signature, made, _⟩ := sign_eq_ok_iff.mp signed
    exact (KeyPair.sign_eq_ok_iff.mp made).1
  · intro shown
    let message := utf8 policy.id.text.toList
    let signature : Signature :=
      ⟨Ed25519.signBytes pair.seed message, Ed25519.length_signBytes pair.seed message⟩
    have made : pair.sign policy.id = .ok signature := KeyPair.sign_eq_ok_iff.mpr ⟨shown, rfl⟩
    exact ⟨_, sign_eq_ok_iff.mpr ⟨signature, made, rfl⟩⟩

/-- A request that holds has a policy whose identifier is confirmed. -/
theorem verifyId_of_verify {key : PublicKey} (held : request.verify key = .ok ()) :
    request.policy.verifyId = .ok () := by
  -- The identifier is confirmed after the signature has been read and checked.
  obtain ⟨_, _, held⟩ := bind_eq_ok_iff.mp held
  obtain ⟨_, _, confirmed⟩ := bind_eq_ok_iff.mp held
  exact mapError_eq_ok_iff.mp confirmed

/-- Once the signature holds, the identifier decides. -/
theorem verify_of_signature {key : PublicKey} {signature : Signature}
    (read : Signature.ofBase64 request.signature = .ok signature)
    (held : signature.verify key request.policy.id = .ok ()) :
    request.verify key = request.policy.verifyId.mapError .identity := by
  -- Both checks before that of the identifier pass.
  have first : (Signature.ofBase64 request.signature).mapError RequestError.crypto = .ok signature :=
    mapError_eq_ok_iff.mpr read
  have second : (signature.verify key request.policy.id).mapError RequestError.crypto = .ok () :=
    mapError_eq_ok_iff.mpr held
  simp only [verify, first, second, bind, Except.bind]

/-- The signature of a signed request does not fail, so that the identifier decides. -/
theorem verify_of_sign (signed : sign policy owner device pair = .ok request)
    (accepted : pair.acceptsOwn (utf8 policy.id.text.toList) = true) :
    request.verify pair.publicKey = policy.verifyId.mapError .identity := by
  obtain ⟨signature, made, rfl⟩ := sign_eq_ok_iff.mp signed
  exact verify_of_signature signature.ofBase64_base64 (Signature.verify_of_sign made accepted)

/-- A request whose policy is a preview does not hold, whoever signed it. -/
theorem verify_of_mask {key : PublicKey} (hidden : request.policy.id = .mask) :
    ∃ error, request.verify key = .error error := by
  -- The identifier is checked in the end, if nothing has failed before.
  cases held : request.verify key with
  | error error => exact ⟨error, rfl⟩
  | ok => exact absurd hidden (Policy.id_ne_mask_of_verifyId (verifyId_of_verify held))

/-- A pair that accepts its own signature of the identifier signs every policy but previews, and the
request holds under the public key of the pair exactly when the identifier is confirmed, as it is
for every policy that is assembled. A request for a preview holds under no key, whatever its
signature. -/
theorem sign_verify_iff (policy : Policy) (owner device : String) (pair : KeyPair)
    (accepted : pair.acceptsOwn (utf8 policy.id.text.toList) = true) :
    ((∃ request, sign policy owner device pair = .ok request) ↔ policy.id ≠ .mask) ∧
    (∀ request, sign policy owner device pair = .ok request →
      (request.verify pair.publicKey = .ok () ↔ policy.verifyId = .ok ())) ∧
    (∀ (request : DelegateRequest) (key : PublicKey), request.policy.id = .mask →
      ∃ error, request.verify key = .error error) ∧
    (∀ (delegation : Delegation) (book : Book) (action : Option Catalog.Action),
      delegation.assemble book action false = .ok policy →
      ∃ request, sign policy owner device pair = .ok request ∧
        request.verify pair.publicKey = .ok ()) := by
  -- What is left to the policy is whether its identifier is confirmed.
  have decides : ∀ request, sign policy owner device pair = .ok request →
      (request.verify pair.publicKey = .ok () ↔ policy.verifyId = .ok ()) := by
    intro request signed
    rw [verify_of_sign signed accepted, mapError_eq_ok_iff]
  refine ⟨exists_sign_iff, decides, fun _ _ => verify_of_mask, ?_⟩
  intro delegation book action assembled
  -- An assembled policy is confirmed, and thus no preview.
  have confirmed := (Delegation.verifyId_of_assemble assembled).1 rfl
  obtain ⟨request, signed⟩ := exists_sign_iff.mpr (Policy.id_ne_mask_of_verifyId confirmed)
  exact ⟨request, signed, (decides request signed).mpr confirmed⟩

/-- The pair of the seed of thirty-two zeros. -/
def zeroPair : KeyPair := ⟨List.replicate 32 0, rfl⟩

/-- The empty delegation is signed and the request holds, but not a request for its preview under
a made-up signature. -/
theorem sign_verify_blank :
    Delegation.empty.assemble .empty none false = .ok Policy.blank ∧
    zeroPair.acceptsOwn (utf8 Policy.blank.id.text.toList) = true ∧
    (∃ request, sign Policy.blank "owner" "device" zeroPair = .ok request ∧
      request.verify zeroPair.publicKey = .ok ()) ∧
    ∃ error, verify ⟨"owner", "device", { Policy.blank with id := .mask }, "c2lnbmVk"⟩
      zeroPair.publicKey = .error error := by
  -- One signature is made and checked, and the rest follows for every pair that accepts it.
  have accepted : zeroPair.acceptsOwn (utf8 Policy.blank.id.text.toList) = true := by
    decide +kernel
  obtain ⟨_, _, hidden, assembles⟩ := sign_verify_iff Policy.blank "owner" "device" zeroPair accepted
  exact ⟨Delegation.assemble_empty, accepted, assembles _ _ _ Delegation.assemble_empty,
    hidden _ _ rfl⟩

end DelegateRequest

end Warrant
