import Warrant.Json.Printer

/-! The canonical text of a value: the one spelling that every device computes. -/

namespace Warrant.Json

/-- The members of an object as texts, joined by commas. -/
def joinMembers : List (List Char × List Char) → List Char
  | [] => []
  | [(key, value)] => key ++ ':' :: value
  | (key, value) :: rest => key ++ ':' :: value ++ ',' :: joinMembers rest

mutual

/-- The compact text with the members of every object in the order of their written keys, which
include the quotes and the escapes. -/
def canonicalText : Json → List Char
  | .arr items => '[' :: canonicalItems items ++ [']']
  | .obj members => '\x7b' :: joinMembers (canonicalMembers members) ++ ['\x7d']
  | leaf => writeLeaf leaf

/-- The canonical texts of items, with commas between them. -/
def canonicalItems : List Json → List Char
  | [] => []
  | [item] => item.canonicalText
  | item :: rest => item.canonicalText ++ ',' :: canonicalItems rest

/-- Written keys with canonical texts, in the order of the keys. -/
def canonicalMembers : List (String × Json) → List (List Char × List Char)
  | [] => []
  | (key, value) :: rest =>
    enter (writeText key) value.canonicalText (canonicalMembers rest)

end

/-- The canonical text of a value. A float has no spelling that all devices share, so that the first
one in key order is an error. -/
def canonical (json : Json) : Except (Finite binary64) (List Char) :=
  match json.firstFloat? with
  | some value => .error value
  | none => .ok json.canonicalText

/-- The complaint about a float, which shows it without a power of ten. -/
def floatMessage (value : Finite binary64) : String :=
  "float values are not permitted in canonical representations: " ++
    String.ofList (value.write .plain)

/-- A value has a canonical text exactly when it holds no float. -/
theorem canonical_eq_ok_iff {json : Json} {text : List Char} :
    json.canonical = .ok text ↔ json.firstFloat? = none ∧ json.canonicalText = text := by
  -- The search for a float decides between the two outcomes.
  unfold canonical
  split <;> simp_all

end Warrant.Json
