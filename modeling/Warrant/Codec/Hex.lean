import Warrant.Text.Ascii
import Warrant.Text.Numeral

/-! Bytes as pairs of hexadecimal digits. -/

namespace Warrant.Hex

/-- Two small digits for every byte. -/
def lower (bytes : List UInt8) : List Char :=
  bytes.flatMap fun byte => [(byte.toNat / 16).digitChar, (byte.toNat % 16).digitChar]

/-- Two digits for every byte, with capital letters. -/
def upper (bytes : List UInt8) : List Char :=
  (lower bytes).map Char.toUpper

/-- Why a text is not the hexadecimal form of any bytes. -/
inductive Error where
  | shape
  | pair (position : Nat)
deriving DecidableEq

/-- The complaint about a text. -/
def Error.message : Error → String
  | .shape => "hex string must be ASCII with even length"
  | .pair position =>
    "invalid hex at position " ++ String.ofList (Text.natural position) ++
      ": invalid digit found in string"

/-- The number that two characters write: two digits, or one after a plus sign. -/
def readPair? (first second : Char) : Option UInt8 := do
  let low ← Text.hexDigit? second
  if first = '+' then return .ofNat low
  let high ← Text.hexDigit? first
  return .ofNat (high * 16 + low)

/-- The bytes of the pairs from a position on. -/
def readPairs (position : Nat) : List Char → Except Error (List UInt8)
  | first :: second :: rest =>
    -- A pair that cannot be read is named by its position.
    match readPair? first second with
    | some byte => (readPairs (position + 2) rest).map (byte :: ·)
    | none => .error (.pair position)
  | [_] => .error .shape
  | [] => .ok []

/-- The bytes that a text writes in pairs. Its shape is judged before any of its pairs. -/
def read (text : List Char) : Except Error (List UInt8) :=
  if text.length % 2 = 0 ∧ text.all (fun c => c.toNat < 128) then readPairs 0 text
  else .error .shape

end Warrant.Hex
