import Warrant.Text.Blank
import Warrant.Text.Numeral
import Warrant.Text.Quoted
import Warrant.Time.Stamp

/-! Instants read from RFC 3339 texts, strictly, with and without offsets. -/

namespace Warrant

namespace Stamp

/-- A number of at least and at most so many digits, and what follows it. -/
def readNumber? (least most : Nat) (text : List Char) : Option (Nat × List Char) :=
  let digits := (text.take most).takeWhile Char.isDigit
  if digits.length < least then none
  else some (Nat.ofDigitChars 10 digits 0, text.drop digits.length)

/-- What follows a given character. -/
def skip? (c : Char) : List Char → Option (List Char)
  | [] => none
  | first :: rest => if first = c then some rest else none

/-- What follows the mark between a date and a time of day. -/
def skipMark? : List Char → Option (List Char)
  | [] => none
  | mark :: rest => if mark = 'T' ∨ mark = 't' ∨ mark = ' ' then some rest else none

/-- The nanoseconds of an optional fraction, of which nine digits count. -/
def readFraction? : List Char → Option (Nat × List Char)
  | '.' :: rest =>
    let digits := rest.takeWhile Char.isDigit
    let counted := digits.take 9
    if digits = [] then none
    else some (Nat.ofDigitChars 10 counted 0 * Nat.pow 10 (9 - counted.length),
      rest.dropWhile Char.isDigit)
  | rest => some (0, rest)

/-- What an offset does with the text between its hours and its minutes. -/
abbrev Separator := List Char → Option (List Char)

/-- The sign of an offset, of which minus has two spellings. -/
def readOffsetSign? : List Char → Option (Int × List Char)
  | [] => none
  | sign :: rest =>
    if sign = '+' then some (1, rest)
    else if sign = '-' ∨ sign = '\u2212' then some (-1, rest)
    else none

/-- The seconds of an offset: the letter for none, or a sign with hours and minutes of two digits.
-/
def readOffset? (separator : Separator) : List Char → Option (Int × List Char)
  | 'Z' :: rest | 'z' :: rest => some (0, rest)
  | text => do
    let (sign, rest) ← readOffsetSign? text
    let (hours, rest) ← readNumber? 2 2 rest
    let rest ← separator rest
    let (minutes, rest) ← readNumber? 2 2 rest
    if minutes < 60 then return (sign * (hours * 3600 + minutes * 60), rest) else none

/-- The fields and the offset of a whole text, with every field at its full width. -/
def readStrict? (text : List Char) : Option (Stamp × Int) := do
  let (year, rest) ← readNumber? 4 4 text
  let (month, rest) ← readNumber? 2 2 (← skip? '-' rest)
  let (day, rest) ← readNumber? 2 2 (← skip? '-' rest)
  let (hour, rest) ← readNumber? 2 2 (← skipMark? rest)
  let (minute, rest) ← readNumber? 2 2 (← skip? ':' rest)
  let (second, rest) ← readNumber? 2 2 (← skip? ':' rest)
  let (nanos, rest) ← readFraction? rest
  let (offset, rest) ← readOffset? (skip? ':') rest
  if rest = [] then return (⟨⟨year, month, day⟩, hour, minute, second, nanos⟩, offset) else none

end Stamp

/-- Why there is no instant. -/
inductive InvalidInstant where
  | notUniversal (text : String)
  | malformed (text : String)
  | outOfRange (second : Int)
deriving DecidableEq

/-- The complaint about a text or a second. -/
def InvalidInstant.message : InvalidInstant → String
  | .notUniversal text =>
    "invalid timestamp: timestamp must use Z suffix (UTC only), got: " ++ Text.quoted text
  | .malformed text => "invalid timestamp: " ++ Text.quoted text ++ ": "
  | .outOfRange second =>
    "invalid timestamp: epoch seconds out of range: " ++ String.ofList (Text.integer second)

namespace Instant

/-- The instant at the beginning of a second. -/
def ofSecond (second : Int) : Except InvalidInstant Instant :=
  match ofSecond? second with
  | some t => .ok t
  | none => .error (.outOfRange second)

/-- Reads a time at any offset, without its fraction. -/
def read (text : String) : Except InvalidInstant Instant :=
  match (Stamp.readStrict? text.toList).bind fun (stamp, offset) => stamp.instant? offset with
  | some t => .ok t.truncate
  | none => .error (.malformed text)

/-- Reads a universal time, which ends in a capital Z. An offset is refused even when it is zero, so
that no file means another window on another machine. -/
def readUniversal (text : String) : Except InvalidInstant Instant :=
  if text.toList.getLast? = some 'Z' then read text else .error (.notUniversal text)

end Instant

end Warrant
