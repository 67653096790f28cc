import Warrant.Codec.Hex
import Warrant.Hash.Sha2
import Warrant.Json.Record
import Warrant.Text.Blank
import Warrant.Text.Quoted

/-! Named hash functions, and digests that carry the name of theirs. -/

namespace Warrant

/-- The bytes of a text in UTF-8. -/
def utf8 (text : List Char) : List UInt8 :=
  text.flatMap String.utf8EncodeChar

/-- The hash functions that a policy may name. -/
inductive Algorithm where
  | sha256
  | sha384
  | sha512
deriving DecidableEq

/-- A name that stands for no hash function. -/
structure UnsupportedAlgorithm where
  name : String
deriving DecidableEq

/-- The complaint about a name. -/
def UnsupportedAlgorithm.message (e : UnsupportedAlgorithm) : String :=
  "unsupported digest algorithm: " ++ Text.quoted e.name

namespace Algorithm

/-- The name written into policies. -/
def name : Algorithm → String
  | .sha256 => "sha-256"
  | .sha384 => "sha-384"
  | .sha512 => "sha-512"

/-- The hash function of a name without blanks around it and capitals in it. -/
def ofPlainName? (name : String) : Option Algorithm :=
  if name = "sha-256" ∨ name = "sha256" then some .sha256
  else if name = "sha-384" ∨ name = "sha384" then some .sha384
  else if name = "sha-512" ∨ name = "sha512" then some .sha512
  else none

/-- The hash function that a policy names. There is no fallback: with another function in its place
two devices would disagree about a policy. -/
def ofName (name : String) : Except UnsupportedAlgorithm Algorithm :=
  match ofPlainName? (String.ofList (Text.lower (Text.trim name.toList))) with
  | some algorithm => .ok algorithm
  | none => .error ⟨name⟩

/-- The number of bytes in a digest. -/
def size : Algorithm → Nat
  | .sha256 => 32
  | .sha384 => 48
  | .sha512 => 64

/-- The digest of a message. -/
def hash : Algorithm → List UInt8 → List UInt8
  | .sha256 => Sha2.hash Sha2.sha256
  | .sha384 => Sha2.hash Sha2.sha384
  | .sha512 => Sha2.hash Sha2.sha512

/-- The identifier in typed JSON. -/
def tag : Algorithm → String
  | .sha256 => "Sha256"
  | .sha384 => "Sha384"
  | .sha512 => "Sha512"

/-- The hash function of an identifier. -/
def ofTag? (tag : String) : Option Algorithm :=
  if tag = "Sha256" then some .sha256
  else if tag = "Sha384" then some .sha384
  else if tag = "Sha512" then some .sha512
  else none

/-- Digests have the announced size. -/
theorem length_hash (algorithm : Algorithm) (message : List UInt8) :
    (algorithm.hash message).length = algorithm.size := by
  -- Each variant cuts eight words to its size.
  cases algorithm <;> exact Sha2.length_hash (by decide) message

end Algorithm

/-- A digest with the function that produced it. -/
structure Digest where
  algorithm : Algorithm
  bytes : List UInt8
deriving DecidableEq

namespace Digest

/-- The digest of a text. -/
def ofText (algorithm : Algorithm) (text : List Char) : Digest :=
  ⟨algorithm, algorithm.hash (utf8 text)⟩

/-- Two small hexadecimal digits for every byte. -/
def lowerHex (d : Digest) : String :=
  String.ofList (Hex.lower d.bytes)

/-- Two capital hexadecimal digits for every byte. -/
def upperHex (d : Digest) : String :=
  String.ofList (Hex.upper d.bytes)

/-- The name of the function and the digits. -/
def label (d : Digest) : String :=
  d.algorithm.name ++ ":" ++ d.lowerHex

/-- The record with the identifier of the function and the bytes as numbers. -/
def toJson (d : Digest) : Json :=
  .obj [("algorithm", .str d.algorithm.tag), ("bytes", .arr (d.bytes.map fun b => .int b.toNat))]

/-- Reads a record; its bytes may be of any number. -/
def ofDocument? (document : Document) : Option Digest := do
  match ← document.fields? .ignored ["algorithm", "bytes"] with
  | [some algorithm, some bytes] =>
    let algorithm ← algorithm.choice? Algorithm.ofTag?
    let bytes ← bytes.listOf? (Document.natBelow? 256)
    return ⟨algorithm, bytes.map .ofNat⟩
  | _ => none

end Digest

end Warrant
