import Warrant.Text.Ascii

/-! JSON documents as they are written, and the reader of their grammar. -/

namespace Warrant

/-- A document before it is given a value: members in written order with their repetitions, and
numerals as they stand. A string is `none` when its escapes name half of a surrogate pair, which
matters only to those who want its text. -/
inductive Document where
  | null
  | bool (value : Bool)
  | number (numeral : List Char)
  | string (text : Option String)
  | list (items : List Document)
  | record (members : List (Option String × Document))

namespace Document

mutual

/-- The nesting of lists and records. -/
def depth : Document → Nat
  | .list items => depthItems items + 1
  | .record members => depthMembers members + 1
  | _ => 0

/-- The deepest item. -/
def depthItems : List Document → Nat
  | [] => 0
  | item :: rest => max item.depth (depthItems rest)

/-- The deepest member. -/
def depthMembers : List (Option String × Document) → Nat
  | [] => 0
  | (_, value) :: rest => max value.depth (depthMembers rest)

end

/-- The blanks that may stand between tokens. -/
def isSpace (c : Char) : Bool :=
  c = ' ' || c = '\t' || c = '\n' || c = '\r'

/-- The text from the next token on. -/
def skipSpaces (text : List Char) : List Char :=
  text.dropWhile isSpace

/-- A piece of a string: a character, or a code of sixteen bits written as an escape. -/
inductive Piece where
  | char (c : Char)
  | code (unit : Nat)
deriving DecidableEq

/-- The character that a short escape stands for. -/
def shortEscape? (c : Char) : Option Char :=
  if c = '"' ∨ c = '\\' ∨ c = '/' then some c
  else if c = 'b' then some '\x08'
  else if c = 'f' then some '\x0c'
  else if c = 'n' then some '\n'
  else if c = 'r' then some '\r'
  else if c = 't' then some '\t'
  else none

/-- The code of four hexadecimal digits. -/
def unit? (a b c d : Char) : Option Nat := do
  let a ← Text.hexDigit? a
  let b ← Text.hexDigit? b
  let c ← Text.hexDigit? c
  let d ← Text.hexDigit? d
  return ((a * 16 + b) * 16 + c) * 16 + d

/-- The pieces of a string up to its closing quote, and what follows it. -/
def readPieces? : List Char → Option (List Piece × List Char)
  | [] => none
  | '"' :: rest => some ([], rest)
  -- A code has four hexadecimal digits, and any other escape is a single mark.
  | '\\' :: 'u' :: a :: b :: c :: d :: rest => do
    let unit ← unit? a b c d
    let (pieces, rest) ← readPieces? rest
    return (.code unit :: pieces, rest)
  | '\\' :: c :: rest => do
    let c ← shortEscape? c
    let (pieces, rest) ← readPieces? rest
    return (.char c :: pieces, rest)
  | c :: rest =>
    -- Control characters have to be escaped.
    if c.toNat < 0x20 ∨ c = '\\' then none
    else do
      let (pieces, rest) ← readPieces? rest
      return (.char c :: pieces, rest)

/-- The codes that open a surrogate pair. -/
def isHigh (unit : Nat) : Bool :=
  0xD800 ≤ unit && unit < 0xDC00

/-- The codes that close a surrogate pair. -/
def isLow (unit : Nat) : Bool :=
  0xDC00 ≤ unit && unit < 0xE000

/-- The characters of the pieces: two codes of a pair make one, and half a pair makes none. -/
def join? : List Piece → Option (List Char)
  | [] => some []
  | .char c :: rest => (join? rest).map (c :: ·)
  -- A high half needs a low one behind it, and a low one never stands alone.
  | .code high :: .code low :: rest =>
    if isHigh high then
      if isLow low then
        (join? rest).map (Char.ofNat (0x10000 + (high - 0xD800) * 0x400 + (low - 0xDC00)) :: ·)
      else none
    else if isLow high then none
    else (join? (.code low :: rest)).map (Char.ofNat high :: ·)
  | .code unit :: rest =>
    if isHigh unit || isLow unit then none
    else (join? rest).map (Char.ofNat unit :: ·)

/-- A string after its opening quote. -/
def readString? (text : List Char) : Option (Option String × List Char) :=
  (readPieces? text).map fun (pieces, rest) => ((join? pieces).map String.ofList, rest)

/-- A run of at least one digit. -/
def readDigits? (text : List Char) : Option (List Char × List Char) :=
  match text.takeWhile Char.isDigit with
  | [] => none
  | digits => some (digits, text.dropWhile Char.isDigit)

/-- The whole part of a numeral, which starts with a zero only when it is one. -/
def readWhole? : List Char → Option (List Char × List Char)
  | '0' :: rest => some (['0'], rest)
  | text => readDigits? text

/-- The point and the digits after it, if there is a point. -/
def readFraction? : List Char → Option (List Char × List Char)
  | '.' :: rest => (readDigits? rest).map fun (digits, rest) => ('.' :: digits, rest)
  | text => some ([], text)

/-- The mark, the sign and the digits of the power of ten, if there is a mark. -/
def readPower? : List Char → Option (List Char × List Char)
  | [] => some ([], [])
  | mark :: rest =>
    if mark = 'e' ∨ mark = 'E' then
      -- The sign belongs to the power, and is kept in its text.
      let (sign, rest) :=
        match rest with
        | '+' :: rest => (['+'], rest)
        | '-' :: rest => (['-'], rest)
        | rest => ([], rest)
      (readDigits? rest).map fun (digits, rest) => (mark :: sign ++ digits, rest)
    else some ([], mark :: rest)

/-- The longest numeral at the start of a text. -/
def readNumeral? (text : List Char) : Option (List Char × List Char) := do
  -- A minus may stand in front, but no plus.
  let (sign, rest) :=
    match text with
    | '-' :: rest => (['-'], rest)
    | rest => ([], rest)
  let (whole, rest) ← readWhole? rest
  let (fraction, rest) ← readFraction? rest
  let (power, rest) ← readPower? rest
  return (sign ++ whole ++ fraction ++ power, rest)

mutual

/-- One document after any blanks, and what follows it. -/
def readValue? : Nat → List Char → Option (Document × List Char)
  | 0, _ => none
  | fuel + 1, text =>
    -- The first character behind the blanks tells what kind of document follows.
    match skipSpaces text with
    | 'n' :: 'u' :: 'l' :: 'l' :: rest => some (.null, rest)
    | 't' :: 'r' :: 'u' :: 'e' :: rest => some (.bool true, rest)
    | 'f' :: 'a' :: 'l' :: 's' :: 'e' :: rest => some (.bool false, rest)
    | '"' :: rest => (readString? rest).map fun (text, rest) => (.string text, rest)
    | '[' :: rest =>
      -- An empty list is closed at once, as nothing but a document could follow the bracket.
      match skipSpaces rest with
      | ']' :: rest => some (.list [], rest)
      | rest => (readItems? fuel rest).map fun (items, rest) => (.list items, rest)
    | '\x7b' :: rest =>
      match skipSpaces rest with
      | '\x7d' :: rest => some (.record [], rest)
      | rest => (readMembers? fuel rest).map fun (members, rest) => (.record members, rest)
    | rest => (readNumeral? rest).map fun (numeral, rest) => (.number numeral, rest)

/-- One item, and the others after a comma, up to the closing bracket. -/
def readItems? : Nat → List Char → Option (List Document × List Char)
  | 0, _ => none
  | fuel + 1, text => do
    let (item, rest) ← readValue? fuel text
    match skipSpaces rest with
    | ',' :: rest => (readItems? fuel rest).map fun (items, rest) => (item :: items, rest)
    | ']' :: rest => some ([item], rest)
    | _ => none

/-- One member, and the others after a comma, up to the closing brace. -/
def readMembers? : Nat → List Char → Option (List (Option String × Document) × List Char)
  | 0, _ => none
  | fuel + 1, text => do
    let (key, rest) ←
      match skipSpaces text with
      | '"' :: rest => readString? rest
      | _ => none
    let rest ←
      match skipSpaces rest with
      | ':' :: rest => some rest
      | _ => none
    let (value, rest) ← readValue? fuel rest
    -- A comma calls for a further member.
    match skipSpaces rest with
    | ',' :: rest =>
      (readMembers? fuel rest).map fun (members, rest) => ((key, value) :: members, rest)
    | '\x7d' :: rest => some ([(key, value)], rest)
    | _ => none

end

/-- The first document of a text and what follows it. Every second call of the reader takes a
character, so that twice the length of the text is fuel enough. -/
def readFirst? (text : List Char) : Option (Document × List Char) :=
  readValue? (2 * text.length + 2) text

/-- The document that makes up a whole text, up to blanks at its ends. -/
def read? (text : List Char) : Option Document :=
  match readFirst? text with
  | some (document, rest) => if skipSpaces rest = [] then some document else none
  | none => none

end Document

end Warrant
