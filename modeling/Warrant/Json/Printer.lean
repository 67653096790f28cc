import Warrant.Json.Basic
import Warrant.Number.Layout
import Warrant.Text.Numeral

/-! JSON texts of trees: compact, and indented by two spaces. -/

namespace Warrant.Json

/-- The escape of one character inside a string. -/
def escape (c : Char) : List Char :=
  if c = '"' then ['\\', '"']
  else if c = '\\' then ['\\', '\\']
  else if c = '\n' then ['\\', 'n']
  else if c = '\r' then ['\\', 'r']
  else if c = '\t' then ['\\', 't']
  -- Backspace and form feed are known by their codes.
  else if c.toNat = 8 then ['\\', 'b']
  else if c.toNat = 12 then ['\\', 'f']
  -- The other control characters are written by their code.
  else if c.toNat < 0x20 then
    ['\\', 'u', '0', '0', (c.toNat / 16).digitChar, (c.toNat % 16).digitChar]
  else [c]

/-- A string between double quotes, escaped. -/
def writeText (text : String) : List Char :=
  '"' :: text.toList.flatMap escape ++ ['"']

/-- The text of a value that holds no other. -/
def writeLeaf : Json → List Char
  | .bool true => ['t', 'r', 'u', 'e']
  | .bool false => ['f', 'a', 'l', 's', 'e']
  | .int value => Text.integer value
  | .float value => value.write .json
  | .str text => writeText text
  | _ => ['n', 'u', 'l', 'l']

mutual

/-- The compact text, without any blank between its tokens. -/
def write : Json → List Char
  | .arr items => '[' :: writeItems items ++ [']']
  | .obj members => '\x7b' :: writeMembers members ++ ['\x7d']
  | leaf => writeLeaf leaf

/-- The compact texts of items, with commas between them. -/
def writeItems : List Json → List Char
  | [] => []
  | [item] => item.write
  | item :: rest => item.write ++ ',' :: writeItems rest

/-- The compact texts of members, with commas between them. -/
def writeMembers : List (String × Json) → List Char
  | [] => []
  | [(key, value)] => writeText key ++ ':' :: value.write
  | (key, value) :: rest => writeText key ++ ':' :: value.write ++ ',' :: writeMembers rest

end

/-- The start of a line at a level of nesting. -/
def newLine (level : Nat) : List Char :=
  '\n' :: List.replicate (2 * level) ' '

mutual

/-- The indented text: one item or member a line, and nothing inside empty brackets. -/
def indent (level : Nat) : Json → List Char
  | .arr [] => ['[', ']']
  | .arr items => '[' :: indentItems (level + 1) items ++ newLine level ++ [']']
  | .obj [] => ['\x7b', '\x7d']
  | .obj members => '\x7b' :: indentMembers (level + 1) members ++ newLine level ++ ['\x7d']
  | leaf => writeLeaf leaf

/-- The lines of items, with commas at their ends. -/
def indentItems (level : Nat) : List Json → List Char
  | [] => []
  | [item] => newLine level ++ item.indent level
  | item :: rest => newLine level ++ item.indent level ++ ',' :: indentItems level rest

/-- The lines of members, with commas at their ends. -/
def indentMembers (level : Nat) : List (String × Json) → List Char
  | [] => []
  | [(key, value)] => newLine level ++ writeText key ++ ':' :: ' ' :: value.indent level
  | (key, value) :: rest =>
    newLine level ++ writeText key ++ ':' :: ' ' :: value.indent level ++
      ',' :: indentMembers level rest

end

/-- The compact text as a string. -/
def compact (json : Json) : String :=
  String.ofList json.write

/-- The indented text as a string. -/
def pretty (json : Json) : String :=
  String.ofList (json.indent 0)

end Warrant.Json
