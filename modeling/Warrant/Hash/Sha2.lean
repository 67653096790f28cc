import Warrant.Hash.Constants

/-! The SHA-2 compression and chaining, for either width of words. -/

namespace Warrant.Sha2

/-- A member of the family: its round constants, the amounts of its four mixing functions, the words
that start the chain, and how many bytes of the last chain value make up the digest. -/
structure Variant (width : Nat) where
  constants : List (BitVec width)
  upperMix : Nat × Nat × Nat
  lowerMix : Nat × Nat × Nat
  earlyMix : Nat × Nat × Nat
  lateMix : Nat × Nat × Nat
  start : List (BitVec width)
  size : Nat

variable {width : Nat}

/-- The sum without carry of three rotations. -/
def rotations (amounts : Nat × Nat × Nat) (x : BitVec width) : BitVec width :=
  x.rotateRight amounts.1 ^^^ x.rotateRight amounts.2.1 ^^^ x.rotateRight amounts.2.2

/-- The sum without carry of two rotations and a shift. -/
def rotationsAndShift (amounts : Nat × Nat × Nat) (x : BitVec width) : BitVec width :=
  x.rotateRight amounts.1 ^^^ x.rotateRight amounts.2.1 ^^^ x >>> amounts.2.2

/-- The eight words of a chain value. -/
structure State (width : Nat) where
  a : BitVec width
  b : BitVec width
  c : BitVec width
  d : BitVec width
  e : BitVec width
  f : BitVec width
  g : BitVec width
  h : BitVec width

namespace State

/-- The state with the given words. -/
def ofWords (words : List (BitVec width)) : State width :=
  ⟨words.getD 0 0, words.getD 1 0, words.getD 2 0, words.getD 3 0,
    words.getD 4 0, words.getD 5 0, words.getD 6 0, words.getD 7 0⟩

/-- The words of the state in order. -/
def words (s : State width) : List (BitVec width) :=
  [s.a, s.b, s.c, s.d, s.e, s.f, s.g, s.h]

/-- The word by word sum. -/
def add (s t : State width) : State width :=
  ⟨s.a + t.a, s.b + t.b, s.c + t.c, s.d + t.d, s.e + t.e, s.f + t.f, s.g + t.g, s.h + t.h⟩

/-- One round, which takes a constant and a word of the message schedule. -/
def round (v : Variant width) (constant word : BitVec width) (s : State width) : State width :=
  -- The first word chooses between the other two, bit by bit, and three words vote on each bit.
  let choice := (s.e &&& s.f) ^^^ (~~~s.e &&& s.g)
  let majority := (s.a &&& s.b) ^^^ (s.a &&& s.c) ^^^ (s.b &&& s.c)
  let first := s.h + rotations v.lowerMix s.e + choice + constant + word
  let second := rotations v.upperMix s.a + majority
  ⟨first + second, s.a, s.b, s.c, s.d + first, s.e, s.f, s.g⟩

end State

/-- The window of sixteen schedule words that follows another one. -/
def advance (v : Variant width) (window : List (BitVec width)) : List (BitVec width) :=
  window.drop 1 ++
    [rotationsAndShift v.lateMix (window.getD 14 0) + window.getD 9 0 +
      rotationsAndShift v.earlyMix (window.getD 1 0) + window.getD 0 0]

/-- All rounds on one block, whose words are the first window of the schedule. -/
def rounds (v : Variant width) :
    List (BitVec width) → List (BitVec width) → State width → State width
  | [], _, s => s
  | constant :: rest, window, s =>
    rounds v rest (advance v window) (s.round v constant (window.getD 0 0))

/-- The number that bytes write, the most significant byte first. -/
def ofBytes (bytes : List UInt8) : Nat :=
  bytes.foldl (fun n byte => n * 256 + byte.toNat) 0

/-- The bytes of a number at a given length, the most significant byte first. -/
def toBytes : Nat → Nat → List UInt8
  | 0, _ => []
  | length + 1, n => toBytes length (n / 256) ++ [.ofNat (n % 256)]

/-- Consecutive pieces of a list, all but the last of the given length, taken as often as fuel
lasts. -/
def chunks {α : Type} (length : Nat) : Nat → List α → List (List α)
  | 0, _ => []
  | _, [] => []
  | fuel + 1, items => items.take length :: chunks length fuel (items.drop length)

/-- The message, a one bit, zeros up to the end of a block, and the length of the message in bits in
the last eighth of that block. -/
def pad (width : Nat) (message : List UInt8) : List UInt8 :=
  let block := 2 * width
  let frame := 1 + block / 8
  let zeros := (block - (message.length + frame) % block) % block
  message ++ 0x80 :: List.replicate zeros 0 ++ toBytes (block / 8) (8 * message.length)

/-- Chains one block of a padded message onto a state. -/
def compress (v : Variant width) (s : State width) (block : List UInt8) : State width :=
  let words := (chunks (width / 8) 16 block).map fun bytes => BitVec.ofNat width (ofBytes bytes)
  s.add (rounds v v.constants words s)

/-- The digest of a message. -/
def hash (v : Variant width) (message : List UInt8) : List UInt8 :=
  let padded := pad width message
  let last := (chunks (2 * width) padded.length padded).foldl (compress v) (.ofWords v.start)
  (last.words.flatMap fun word => toBytes (width / 8) word.toNat).take v.size

/-- SHA-256. -/
def sha256 : Variant 32 where
  constants := cubeRoots32
  upperMix := (2, 13, 22)
  lowerMix := (6, 11, 25)
  earlyMix := (7, 18, 3)
  lateMix := (17, 19, 10)
  start := squareRoots32
  size := 32

/-- SHA-512. -/
def sha512 : Variant 64 where
  constants := cubeRoots64
  upperMix := (28, 34, 39)
  lowerMix := (14, 18, 41)
  earlyMix := (1, 8, 7)
  lateMix := (19, 61, 6)
  start := squareRoots64
  size := 64

/-- SHA-384: the chain of SHA-512 from another start, cut short. -/
def sha384 : Variant 64 :=
  { sha512 with start := laterSquareRoots64, size := 48 }

/-- Bytes of a given length have that length. -/
@[simp] theorem length_toBytes (length n : Nat) : (toBytes length n).length = length := by
  -- Each step appends the one byte that it takes off.
  induction length generalizing n with
  | zero => rfl
  | succ length ih => simp [toBytes, ih]

/-- A digest has the size of its variant, as long as the state holds that many bytes. -/
theorem length_hash {v : Variant width} (fits : v.size ≤ width / 8 * 8) (message : List UInt8) :
    (hash v message).length = v.size := by
  -- Eight words are written at the same length, and the cut lies within them.
  simp only [hash, List.length_take, State.words, List.flatMap_cons, List.flatMap_nil,
    List.length_append, length_toBytes, List.length_nil]
  omega

end Warrant.Sha2
