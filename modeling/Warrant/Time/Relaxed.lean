import Warrant.Json.Record
import Warrant.Time.Rfc3339

/-! Instants in JSON texts: strings that keep fractions and leap seconds, with room for blanks. -/

namespace Warrant

namespace Stamp

/-- A number of at most so many digits after any blanks. -/
def readLoose? (most : Nat) (text : List Char) : Option (Nat × List Char) :=
  readNumber? 1 most (Text.trimStart text)

/-- A year after any blanks: at most four digits, or a sign and any number of them. -/
def readYear? (text : List Char) : Option (Int × List Char) :=
  match Text.trimStart text with
  | '-' :: rest => (readNumber? 1 rest.length rest).map fun (year, rest) => (-(year : Int), rest)
  | '+' :: rest => (readNumber? 1 rest.length rest).map fun (year, rest) => ((year : Int), rest)
  | rest => (readNumber? 1 4 rest).map fun (year, rest) => ((year : Int), rest)

/-- What follows a given character after any blanks. -/
def skipLoose? (c : Char) (text : List Char) : Option (List Char) :=
  skip? c (Text.trimStart text)

/-- What follows any colons and blanks. -/
def skipColons (text : List Char) : List Char :=
  text.dropWhile fun c => c = ':' || Text.isBlank c

/-- The name of universal time in any case, or an offset whose minutes stand after any colons. -/
def readZone? (text : List Char) : Option (Int × List Char) :=
  if Text.lower (text.take 3) = ['u', 't', 'c'] then some (0, text.drop 3)
  else readOffset? (fun rest => some (skipColons rest)) text

/-- The fields and the offset of a whole text, with blanks around every field. -/
def readRelaxed? (text : List Char) : Option (Stamp × Int) := do
  let (year, rest) ← readYear? text
  let (month, rest) ← readLoose? 2 (← skipLoose? '-' rest)
  let (day, rest) ← readLoose? 2 (← skipLoose? '-' rest)
  let (hour, rest) ← readLoose? 2 (← skipMark? rest)
  let (minute, rest) ← readLoose? 2 (← skipLoose? ':' rest)
  let (second, rest) ← readLoose? 2 (← skipLoose? ':' rest)
  let (nanos, rest) ← readFraction? rest
  let (offset, rest) ← readZone? (Text.trimStart rest)
  if Text.trimStart rest = [] then
    return (⟨⟨year, month, day⟩, hour, minute, second, nanos⟩, offset)
  else none

end Stamp

namespace Instant

/-- An instant is a JSON string with its fraction. -/
def toJson (t : Instant) : Json :=
  .str t.exact

/-- Reads an instant from a JSON string. -/
def ofDocument? (document : Document) : Option Instant := do
  let text ← document.text?
  let (stamp, offset) ← Stamp.readRelaxed? text.toList
  stamp.instant? offset

end Instant

end Warrant
