import Warrant.Hash.Digest
import Warrant.Signature.Curve

/-! Ed25519 signatures over bytes. -/

namespace Warrant.Ed25519

/-- The number that bytes write, the least significant byte first. -/
def number : List UInt8 → Nat
  | [] => 0
  | byte :: rest => byte.toNat + 256 * number rest

/-- The least significant bytes of a number, the least significant first. -/
def bytes : Nat → Nat → List UInt8
  | 0, _ => []
  | count + 1, n => .ofNat (n % 256) :: bytes count (n / 256)

/-- There are as many bytes as asked for. -/
theorem length_bytes (count n : Nat) : (bytes count n).length = count := by
  -- Each step writes one byte.
  induction count generalizing n with
  | zero => rfl
  | succ count ih => simp [bytes, ih]

/-- The number of a digest. -/
def hashNumber (message : List UInt8) : Nat :=
  number (Algorithm.sha512.hash message)

/-- The secret factor of a seed: half of its digest, with the three lowest bits and the highest one
cleared and the one below that set. -/
def secretFactor (seed : List UInt8) : Nat :=
  let half := number ((Algorithm.sha512.hash seed).take 32)
  half % Nat.pow 2 254 / 8 * 8 + Nat.pow 2 254

/-- The public key of a seed. -/
def publicBytes (seed : List UInt8) : List UInt8 :=
  bytes 32 (Curve.Point.base.multiply (secretFactor seed)).encoding

/-- The factor that ties a signature to its first half, the key and the message. -/
def challenge (commitment key message : List UInt8) : Nat :=
  hashNumber (commitment ++ key ++ message) % Curve.order

/-- The signature of a message: the encoding of a secret multiple of the base point, and the factor
that answers the challenge. -/
def signBytes (seed message : List UInt8) : List UInt8 :=
  let secret := (Algorithm.sha512.hash seed).drop 32
  let nonce := hashNumber (secret ++ message) % Curve.order
  let commitment := bytes 32 (Curve.Point.base.multiply nonce).encoding
  let answer := challenge commitment (publicBytes seed) message * secretFactor seed + nonce
  commitment ++ bytes 32 (answer % Curve.order)

/-- The point of a public key, if the key lies on the curve. -/
def point? (key : List UInt8) : Option Curve.Point :=
  Curve.Point.ofEncoding? (number key)

/-- Whether a signature answers its challenge. The answer has to be reduced, and the commitment is
compared as it was written. -/
def accepts (key : List UInt8) (point : Curve.Point) (message signature : List UInt8) : Bool :=
  let commitment := signature.take 32
  let answer := number (signature.drop 32)
  let expected := (Curve.Point.base.multiply answer).add
    (point.multiply (challenge commitment key message)).negate
  answer < Curve.order && bytes 32 expected.encoding = commitment

/-- Public keys have 32 bytes. -/
theorem length_publicBytes (seed : List UInt8) : (publicBytes seed).length = 32 :=
  length_bytes 32 _

/-- Signatures have 64 bytes. -/
theorem length_signBytes (seed message : List UInt8) : (signBytes seed message).length = 64 := by
  -- Both halves have 32 bytes.
  simp [signBytes, length_bytes]

end Warrant.Ed25519
