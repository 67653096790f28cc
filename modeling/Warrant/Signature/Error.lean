import Warrant.Codec.Hex

/-! What can be wrong with keys and signatures. -/

namespace Warrant

/-- Why there is no key. -/
inductive KeyError where
  | hex (cause : Hex.Error)
  | publicSize (size : Nat)
  | secretSize (size : Nat)
  | halvesDisagree
  | offCurve
  | noVariable (name : String)
deriving DecidableEq

/-- Why a signature does not hold. -/
inductive SignatureError where
  | hex (cause : Hex.Error)
  | size (size : Nat)
  | wrong
deriving DecidableEq

/-- What can go wrong with keys and signatures. -/
inductive CryptoError where
  | key (cause : KeyError)
  | signature (cause : SignatureError)
  | base64
  | preview
deriving DecidableEq

/-- The complaint about a key. -/
def KeyError.message : KeyError → String
  | .hex cause => cause.message
  | .publicSize count => "public key must be 32 bytes, got " ++ String.ofList (Text.natural count)
  | .secretSize count =>
    "secret key must be 32 or 64 bytes, got " ++ String.ofList (Text.natural count)
  | .halvesDisagree => "secret key halves disagree: "
  | .offCurve => "invalid public key: "
  | .noVariable name => "environment variable " ++ name ++ " not set"

/-- The complaint about a signature. -/
def SignatureError.message : SignatureError → String
  | .hex cause => cause.message
  | .size count => "signature must be 64 bytes, got " ++ String.ofList (Text.natural count)
  | .wrong => "Ed25519 verification failed: "

/-- The complaint about keys or signatures. -/
def CryptoError.message : CryptoError → String
  | .key cause => "invalid key: " ++ cause.message
  | .signature cause => "signature verification failed: " ++ cause.message
  | .base64 => "base64 decode failed: "
  | .preview => "signing failed: refusing to sign a masked preview policy id"

end Warrant
