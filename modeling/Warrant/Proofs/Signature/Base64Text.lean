import Warrant.Proofs.Codec.Base64
import Warrant.Signature.Key

/-! Signatures and secrets in base64: a signature has one spelling and a pair of keys has two, up to
the blanks at the ends. -/

namespace Warrant

namespace Base64

/-- No blank is taken off the text of some bytes. -/
theorem trim_write (bytes : List UInt8) : Text.trim (write bytes) = write bytes :=
  Text.trim_of_visible fun _ member => visible_of_mem_write member

end Base64

namespace Signature

/-- Bytes are a signature when they are its own. -/
theorem ofBytes_eq_ok_iff {bytes : List UInt8} {signature : Signature} :
    ofBytes bytes = .ok signature ↔ bytes = signature.bytes := by
  -- The constructor asks for the number of bytes, which every signature carries a proof of.
  unfold ofBytes
  constructor
  · intro accepted
    split at accepted
    · cases accepted
      rfl
    · cases accepted
  · rintro rfl
    exact dif_pos signature.size

/-- A signature is read from the text that is written for it, between any blanks. -/
theorem ofBase64_eq_ok_iff {text : String} {signature : Signature} :
    ofBase64 text = .ok signature ↔ Text.trim text.toList = signature.base64.toList := by
  rw [base64, String.toList_ofList, ← Base64.read?_eq_some_iff, ofBase64]
  -- Without bytes there is no signature, and with them it is the one that they make up.
  cases Base64.read? (Text.trim text.toList) with
  | none => simp
  | some bytes => simp [ofBytes_eq_ok_iff]

/-- The text of a signature is read as that signature. -/
theorem ofBase64_base64 (signature : Signature) :
    ofBase64 signature.base64 = .ok signature := by
  rw [ofBase64_eq_ok_iff, base64, String.toList_ofList, Base64.trim_write]

end Signature

namespace KeyPair

/-- A seed makes up its pair of keys. -/
theorem ofSecretBytes_seed (pair : KeyPair) : ofSecretBytes pair.seed = .ok pair :=
  dif_pos pair.size

/-- A seed that is followed by a public key makes up its pair of keys if the key is its own. -/
theorem ofSecretBytes_halves (pair : KeyPair) (key : PublicKey) :
    ofSecretBytes (pair.seed ++ key.bytes) =
      if key = pair.publicKey then .ok pair else .error (.key .halvesDisagree) := by
  -- The bytes are cut in the middle, where the seed ends.
  have size : (pair.seed ++ key.bytes).length = 64 := by
    rw [List.length_append, pair.size, key.size]
  have first : (pair.seed ++ key.bytes).take 32 = pair.seed := List.take_left' pair.size
  have second : (pair.seed ++ key.bytes).drop 32 = key.bytes := List.drop_left' pair.size
  -- Keys are compared by their bytes.
  have same : pair.publicKey.bytes = key.bytes ↔ key = pair.publicKey := by
    cases key
    simp [PublicKey.mk.injEq, publicKey, eq_comm]
  rw [ofSecretBytes, dif_neg (by omega), dif_pos size]
  simp only [first, second, same]

/-- Bytes of any other number make up no pair of keys. -/
theorem ofSecretBytes_of_length_ne {bytes : List UInt8} (noSeed : bytes.length ≠ 32)
    (noPair : bytes.length ≠ 64) :
    ofSecretBytes bytes = .error (.key (.secretSize bytes.length)) := by
  rw [ofSecretBytes, dif_neg noSeed, dif_neg noPair]

/-- Bytes are a seed, a seed and a public key, or of another number. -/
theorem secretBytes_cases (bytes : List UInt8) :
    (∃ pair : KeyPair, bytes = pair.seed) ∨
    (∃ (pair : KeyPair) (key : PublicKey), bytes = pair.seed ++ key.bytes) ∨
    (bytes.length ≠ 32 ∧ bytes.length ≠ 64) := by
  -- The two lengths that are taken for keys are tried in turn.
  by_cases seed : bytes.length = 32
  · exact .inl ⟨⟨bytes, seed⟩, rfl⟩
  by_cases both : bytes.length = 64
  · have first : (bytes.take 32).length = 32 := by simp [both]
    have second : (bytes.drop 32).length = 32 := by simp [both]
    exact .inr (.inl ⟨⟨_, first⟩, ⟨_, second⟩, (List.take_append_drop 32 bytes).symm⟩)
  · exact .inr (.inr ⟨seed, both⟩)

/-- The bytes that spell a pair of keys: its seed, and its seed followed by its public key. -/
inductive Spelling (pair : KeyPair) : List UInt8 → Prop where
  | short : Spelling pair pair.seed
  | long : Spelling pair (pair.seed ++ pair.publicKey.bytes)

/-- What is wrong with bytes that spell no pair of keys: their number, or a second half that is not
the public key of the first. -/
inductive Unfit : List UInt8 → KeyError → Prop where
  | size {bytes : List UInt8} (noSeed : bytes.length ≠ 32) (noPair : bytes.length ≠ 64) :
    Unfit bytes (.secretSize bytes.length)
  | halves {pair : KeyPair} {key : PublicKey} (other : key ≠ pair.publicKey) :
    Unfit (pair.seed ++ key.bytes) .halvesDisagree

/-- Bytes make up the pair of keys that they spell. -/
theorem ofSecretBytes_eq_ok_iff {bytes : List UInt8} {pair : KeyPair} :
    ofSecretBytes bytes = .ok pair ↔ pair.Spelling bytes := by
  -- The bytes are cut up by their length, and each of the three cases is settled above.
  constructor
  · intro accepted
    rcases secretBytes_cases bytes with ⟨seed, rfl⟩ | ⟨seed, key, rfl⟩ | ⟨noSeed, noPair⟩
    · rw [ofSecretBytes_seed] at accepted
      cases accepted
      exact .short
    · rw [ofSecretBytes_halves] at accepted
      split at accepted
      · rename_i own
        cases accepted
        cases own
        exact .long
      · cases accepted
    · rw [ofSecretBytes_of_length_ne noSeed noPair] at accepted
      cases accepted
  · intro spelling
    cases spelling with
    | short => exact ofSecretBytes_seed pair
    | long => rw [ofSecretBytes_halves, if_pos rfl]

/-- Bytes are refused for what is wrong with them. -/
theorem ofSecretBytes_eq_error_iff {bytes : List UInt8} {error : CryptoError} :
    ofSecretBytes bytes = .error error ↔ ∃ cause, error = .key cause ∧ Unfit bytes cause := by
  -- The same three cases, of which two have something wrong with them.
  constructor
  · intro refused
    rcases secretBytes_cases bytes with ⟨seed, rfl⟩ | ⟨seed, key, rfl⟩ | ⟨noSeed, noPair⟩
    · rw [ofSecretBytes_seed] at refused
      cases refused
    · rw [ofSecretBytes_halves] at refused
      split at refused
      · cases refused
      · rename_i other
        cases refused
        exact ⟨_, rfl, .halves other⟩
    · rw [ofSecretBytes_of_length_ne noSeed noPair] at refused
      cases refused
      exact ⟨_, rfl, .size noSeed noPair⟩
  · rintro ⟨cause, rfl, unfit⟩
    cases unfit with
    | size noSeed noPair => exact ofSecretBytes_of_length_ne noSeed noPair
    | halves other => rw [ofSecretBytes_halves, if_neg other]

/-- The outcome of a text that is no base64 is that, and the outcome of any other is that of its
bytes. -/
theorem ofBase64_eq_iff {text : String} {outcome : Except CryptoError KeyPair} :
    ofBase64 text = outcome ↔
      (∃ bytes, Text.trim text.toList = Base64.write bytes ∧ ofSecretBytes bytes = outcome) ∨
      (∀ bytes, Text.trim text.toList ≠ Base64.write bytes) ∧ outcome = .error .base64 := by
  -- To be the text of some bytes is to be read as them.
  have written (bytes : List UInt8) : Text.trim text.toList = Base64.write bytes ↔
      Base64.read? (Text.trim text.toList) = some bytes := Base64.read?_eq_some_iff.symm
  simp only [ofBase64, ne_eq, written]
  cases Base64.read? (Text.trim text.toList) with
  | none => simp [eq_comm]
  | some bytes => simp

end KeyPair

/-- A signature is read from the text that is written for it, and from no other, up to the blanks at
its ends. A pair of keys is read from the text of its seed and from that of its seed and its public
key. The text of other bytes is an invalid key, for their number or for a public key that is not
that of the seed, and all other texts are no base64. -/
theorem base64_spelling :
    (∀ signature : Signature, Signature.ofBase64 signature.base64 = .ok signature) ∧
    (∀ (text : String) (signature : Signature), Signature.ofBase64 text = .ok signature ↔
      Text.trim text.toList = signature.base64.toList) ∧
    (∀ (text : String) (pair : KeyPair), KeyPair.ofBase64 text = .ok pair ↔
      ∃ bytes, Text.trim text.toList = Base64.write bytes ∧ pair.Spelling bytes) ∧
    (∀ (text : String) (cause : KeyError), KeyPair.ofBase64 text = .error (.key cause) ↔
      ∃ bytes, Text.trim text.toList = Base64.write bytes ∧ KeyPair.Unfit bytes cause) ∧
    (∀ text : String, KeyPair.ofBase64 text = .error .base64 ↔
      ∀ bytes, Text.trim text.toList ≠ Base64.write bytes) := by
  -- The secret forms come down to the bytes of the text.
  refine ⟨Signature.ofBase64_base64, fun _ _ => Signature.ofBase64_eq_ok_iff, fun text pair => ?_,
    fun text cause => ?_, fun text => ?_⟩
  · simp [KeyPair.ofBase64_eq_iff, KeyPair.ofSecretBytes_eq_ok_iff]
  · simp [KeyPair.ofBase64_eq_iff, KeyPair.ofSecretBytes_eq_error_iff]
  · -- Bytes are never refused for their text.
    simp [KeyPair.ofBase64_eq_iff, KeyPair.ofSecretBytes_eq_error_iff]

end Warrant
