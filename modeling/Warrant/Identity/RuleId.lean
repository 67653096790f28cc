import Warrant.Json.Record
import Warrant.Text.Quoted

/-! Identifiers of rules: 128 bits, written as five groups of hexadecimal digits. -/

namespace Warrant

/-- The identifier of a rule while it is edited. It never becomes part of a policy. -/
structure RuleId where
  bits : BitVec 128
deriving DecidableEq

/-- A text that writes no identifier of a rule. -/
structure InvalidRuleId where
  text : String
deriving DecidableEq

/-- The complaint about a text. -/
def InvalidRuleId.message (e : InvalidRuleId) : String :=
  "invalid identifier: rule id " ++ Text.quoted e.text ++ ": "

namespace RuleId

/-- Identifiers are ordered as numbers. -/
def compare (a b : RuleId) : Ordering :=
  Ord.compare a.bits.toNat b.bits.toNat

/-- A number of hexadecimal digits of a value, the most significant first. -/
def hexDigits : Nat → Nat → List Char
  | 0, _ => []
  | count + 1, n => hexDigits count (n / 16) ++ [(n % 16).digitChar]

/-- The 32 digits without separators. -/
def digits (id : RuleId) : List Char :=
  hexDigits 32 id.bits.toNat

/-- Groups of 8, 4, 4, 4 and 12 digits with hyphens between them. -/
def write (id : RuleId) : String :=
  let d := id.digits
  String.ofList (d.take 8 ++ '-' :: (d.drop 8).take 4 ++ '-' :: (d.drop 12).take 4 ++
    '-' :: (d.drop 16).take 4 ++ '-' :: d.drop 20)

/-- The number that hexadecimal digits of either case write. -/
def ofDigits? (digits : List Char) : Option RuleId := do
  let values ← digits.mapM Text.hexDigit?
  return ⟨.ofNat 128 (values.foldl (fun n value => n * 16 + value) 0)⟩

/-- The identifier in groups with hyphens. -/
def ofGroups? (text : List Char) : Option RuleId :=
  -- The groups have eight, four, four, four and twelve digits.
  let hyphens := [text[8]?, text[13]?, text[18]?, text[23]?]
  if text.length = 36 ∧ hyphens.all (· = some '-') then
    ofDigits? (text.take 8 ++ (text.drop 9).take 4 ++ (text.drop 14).take 4 ++
      (text.drop 19).take 4 ++ text.drop 24)
  else none

/-- The mark that may stand before the groups, in letters of either case. -/
def mark : List Char :=
  "urn:uuid:".toList

/-- Reads the groups, the bare digits, the groups in braces, or the groups after a mark. -/
def read? (text : List Char) : Option RuleId :=
  -- The length tells the four forms apart.
  if text.length = 32 then ofDigits? text
  else if text.length = 36 then ofGroups? text
  else if text.length = 38 then
    if text.head? = some '\x7b' ∧ text.getLast? = some '\x7d' then
      ofGroups? ((text.drop 1).take 36)
    else none
  else if text.length = 45 ∧ Text.lower (text.take 9) = mark then ofGroups? (text.drop 9)
  else none

/-- Reads an identifier or says which text is none. -/
def read (text : String) : Except InvalidRuleId RuleId :=
  match read? text.toList with
  | some id => .ok id
  | none => .error ⟨text⟩

/-- An identifier is a JSON string with the groups. -/
def toJson (id : RuleId) : Json :=
  .str id.write

/-- Reads an identifier from a JSON string. -/
def ofDocument? (document : Document) : Option RuleId :=
  document.text?.bind fun text => read? text.toList

end RuleId

end Warrant
