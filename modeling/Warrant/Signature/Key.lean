import Warrant.Codec.Base64
import Warrant.Identity.PolicyId
import Warrant.Signature.Ed25519
import Warrant.Signature.Error

/-! Keys and signatures of policies. Only identifiers of policies are ever signed. -/

namespace Warrant

/-- A public key, which need not lie on the curve. -/
structure PublicKey where
  bytes : List UInt8
  size : bytes.length = 32
deriving DecidableEq

/-- A signature, which need not hold. -/
structure Signature where
  bytes : List UInt8
  size : bytes.length = 64
deriving DecidableEq

/-- A pair of keys, as the seed of the secret one. -/
structure KeyPair where
  seed : List UInt8
  size : seed.length = 32
deriving DecidableEq

/-- The first digits of a secret or a long text, for messages that should not show it whole. -/
def glimpse (label : String) (bytes : List UInt8) : String :=
  label ++ "(" ++ String.ofList (Hex.lower (bytes.take 4)) ++ "...)"

namespace PublicKey

/-- Two small hexadecimal digits for every byte. -/
def hex (key : PublicKey) : String :=
  String.ofList (Hex.lower key.bytes)

/-- The key of some bytes, if they are 32. -/
def ofBytes (bytes : List UInt8) : Except CryptoError PublicKey :=
  if size : bytes.length = 32 then .ok ⟨bytes, size⟩
  else .error (.key (.publicSize bytes.length))

/-- Reads hexadecimal digits between blanks. -/
def ofHex (text : String) : Except CryptoError PublicKey := do
  let bytes ← (Hex.read (Text.trim text.toList)).mapError fun cause => .key (.hex cause)
  ofBytes bytes

/-- The form for logs. -/
def debug (key : PublicKey) : String :=
  glimpse "Ed25519PublicKey" key.bytes

/-- A key is a JSON string with its digits. -/
def toJson (key : PublicKey) : Json :=
  .str key.hex

end PublicKey

namespace Signature

/-- Two small hexadecimal digits for every byte. -/
def hex (signature : Signature) : String :=
  String.ofList (Hex.lower signature.bytes)

/-- The form in which signatures travel. -/
def base64 (signature : Signature) : String :=
  String.ofList (Base64.write signature.bytes)

/-- The signature of some bytes, if they are 64. -/
def ofBytes (bytes : List UInt8) : Except CryptoError Signature :=
  if size : bytes.length = 64 then .ok ⟨bytes, size⟩
  else .error (.signature (.size bytes.length))

/-- Reads hexadecimal digits between blanks. -/
def ofHex (text : String) : Except CryptoError Signature := do
  let bytes ← (Hex.read (Text.trim text.toList)).mapError fun cause => .signature (.hex cause)
  ofBytes bytes

/-- Reads base64 between blanks. -/
def ofBase64 (text : String) : Except CryptoError Signature :=
  match Base64.read? (Text.trim text.toList) with
  | some bytes => ofBytes bytes
  | none => .error .base64

/-- The form for logs. -/
def debug (signature : Signature) : String :=
  glimpse "Ed25519Signature" signature.bytes

/-- A signature is a JSON string with its digits. -/
def toJson (signature : Signature) : Json :=
  .str signature.hex

end Signature

namespace KeyPair

/-- The public half. -/
def publicKey (pair : KeyPair) : PublicKey :=
  ⟨Ed25519.publicBytes pair.seed, Ed25519.length_publicBytes pair.seed⟩

/-- The pair of the bytes of a seed, which may be followed by its own public key. -/
def ofSecretBytes (bytes : List UInt8) : Except CryptoError KeyPair :=
  if size : bytes.length = 32 then .ok ⟨bytes, size⟩
  else if size : bytes.length = 64 then
    let pair : KeyPair := ⟨bytes.take 32, by simp [size]⟩
    if pair.publicKey.bytes = bytes.drop 32 then .ok pair else .error (.key .halvesDisagree)
  else .error (.key (.secretSize bytes.length))

/-- Reads a secret in base64 between blanks. -/
def ofBase64 (text : String) : Except CryptoError KeyPair :=
  match Base64.read? (Text.trim text.toList) with
  | some bytes => ofSecretBytes bytes
  | none => .error .base64

/-- Reads the secret in a variable of the environment, if the variable is set. -/
def ofVariable (name : String) : Option String → Except CryptoError KeyPair
  | some secret => ofBase64 secret
  | none => .error (.key (.noVariable name))

/-- The form for logs, which shows nothing of the secret. -/
def debug (_ : KeyPair) : String :=
  "Ed25519KeyPair(<private>)"

/-- Signs the identifier of a policy, but never that of a preview. -/
def sign (pair : KeyPair) (id : PolicyId) : Except CryptoError Signature :=
  if id.isMask then .error .preview
  else
    let message := utf8 id.text.toList
    .ok ⟨Ed25519.signBytes pair.seed message, Ed25519.length_signBytes pair.seed message⟩

end KeyPair

/-- Checks a signature of the identifier of a policy. The key is judged before the signature. -/
def Signature.verify (signature : Signature) (key : PublicKey) (id : PolicyId) :
    Except CryptoError Unit :=
  match Ed25519.point? key.bytes with
  | none => .error (.key .offCurve)
  | some point =>
    if Ed25519.accepts key.bytes point (utf8 id.text.toList) signature.bytes then .ok ()
    else .error (.signature .wrong)

end Warrant
