import Warrant.Number.Binary

/-! JSON trees whose members keep an order, and the values in which that order is by key. -/

namespace Warrant

/-- A JSON tree. Whole numbers are exact, and every other number is a finite binary number. -/
inductive Json where
  | null
  | bool (value : Bool)
  | int (value : Int)
  | float (value : Finite binary64)
  | str (text : String)
  | arr (items : List Json)
  | obj (members : List (String × Json))

/-- Adds an entry to a list in key order, unless its key is there already. -/
def enter {κ α : Type} [LT κ] [DecidableLT κ] [DecidableEq κ] (key : κ) (value : α) :
    List (κ × α) → List (κ × α)
  | [] => [(key, value)]
  | entry :: rest =>
    if key < entry.1 then (key, value) :: entry :: rest
    -- Members are entered from the last to the first, so that of a repeated key the last one stays.
    else if key = entry.1 then entry :: rest
    else entry :: enter key value rest

namespace Json

mutual

/-- Equality of trees can be decided. -/
def decideEq : (a b : Json) → Decidable (a = b)
  | .null, .null => .isTrue rfl
  | .bool a, .bool b => decidable_of_iff (a = b) (by simp)
  | .int a, .int b => decidable_of_iff (a = b) (by simp)
  | .float a, .float b => decidable_of_iff (a = b) (by simp)
  | .str a, .str b => decidable_of_iff (a = b) (by simp)
  | .arr a, .arr b =>
    match decideItems a b with
    | .isTrue same => .isTrue (by rw [same])
    | .isFalse different => .isFalse (by simpa using different)
  | .obj a, .obj b =>
    match decideMembers a b with
    | .isTrue same => .isTrue (by rw [same])
    | .isFalse different => .isFalse (by simpa using different)
  | .null, .bool _ | .null, .int _ | .null, .float _ | .null, .str _ | .null, .arr _
  | .null, .obj _ | .bool _, .null | .bool _, .int _ | .bool _, .float _ | .bool _, .str _
  | .bool _, .arr _ | .bool _, .obj _ | .int _, .null | .int _, .bool _ | .int _, .float _
  | .int _, .str _ | .int _, .arr _ | .int _, .obj _ | .float _, .null | .float _, .bool _
  | .float _, .int _ | .float _, .str _ | .float _, .arr _ | .float _, .obj _ | .str _, .null
  | .str _, .bool _ | .str _, .int _ | .str _, .float _ | .str _, .arr _ | .str _, .obj _
  | .arr _, .null | .arr _, .bool _ | .arr _, .int _ | .arr _, .float _ | .arr _, .str _
  | .arr _, .obj _ | .obj _, .null | .obj _, .bool _ | .obj _, .int _ | .obj _, .float _
  | .obj _, .str _ | .obj _, .arr _ => .isFalse (by simp)

/-- Equality of items can be decided one after the other. -/
def decideItems : (a b : List Json) → Decidable (a = b)
  | [], [] => .isTrue rfl
  | [], _ :: _ | _ :: _, [] => .isFalse (by simp)
  | a :: as, b :: bs =>
    match decideEq a b, decideItems as bs with
    | .isTrue first, .isTrue rest => .isTrue (by rw [first, rest])
    | .isFalse first, _ => .isFalse (by simp [first])
    | _, .isFalse rest => .isFalse (by simp [rest])

/-- Equality of members can be decided one after the other. -/
def decideMembers : (a b : List (String × Json)) → Decidable (a = b)
  | [], [] => .isTrue rfl
  | [], _ :: _ | _ :: _, [] => .isFalse (by simp)
  | (k, a) :: as, (l, b) :: bs =>
    if key : k = l then
      match decideEq a b, decideMembers as bs with
      | .isTrue first, .isTrue rest => .isTrue (by rw [key, first, rest])
      | .isFalse first, _ => .isFalse (by simp [first])
      | _, .isFalse rest => .isFalse (by simp [rest])
    else .isFalse (by simp [key])

end

instance : DecidableEq Json := decideEq

/-- The text of a string. -/
def text? : Json → Option String
  | .str text => some text
  | _ => none

/-- The items of an array. -/
def items? : Json → Option (List Json)
  | .arr items => some items
  | _ => none

/-- The members of an object. -/
def members? : Json → Option (List (String × Json))
  | .obj members => some members
  | _ => none

/-- The value of a member of an object. -/
def member? (key : String) : Json → Option Json
  | .obj members => members.lookup key
  | _ => none

/-- The object without members. -/
def isEmptyObject : Json → Bool
  | .obj [] => true
  | _ => false

mutual

/-- The nesting of arrays and objects. -/
def depth : Json → Nat
  | .arr items => depthItems items + 1
  | .obj members => depthMembers members + 1
  | _ => 0

/-- The deepest item. -/
def depthItems : List Json → Nat
  | [] => 0
  | item :: rest => max item.depth (depthItems rest)

/-- The deepest member. -/
def depthMembers : List (String × Json) → Nat
  | [] => 0
  | (_, value) :: rest => max value.depth (depthMembers rest)

end

mutual

/-- The value of a tree: the members of every object in key order, the last of a repeated key. -/
def sorted : Json → Json
  | .arr items => .arr (sortedItems items)
  | .obj members => .obj (sortedMembers members)
  | json => json

/-- The values of the items, in their order. -/
def sortedItems : List Json → List Json
  | [] => []
  | item :: rest => item.sorted :: sortedItems rest

/-- The values of the members, entered from the last to the first. -/
def sortedMembers : List (String × Json) → List (String × Json)
  | [] => []
  | (key, value) :: rest => enter key value.sorted (sortedMembers rest)

end

mutual

/-- The first float met in a walk that takes items and members in their order. -/
def firstFloat? : Json → Option (Finite binary64)
  | .float value => some value
  | .arr items => firstFloatItem? items
  | .obj members => firstFloatMember? members
  | _ => none

/-- The first float among the items. -/
def firstFloatItem? : List Json → Option (Finite binary64)
  | [] => none
  | item :: rest => item.firstFloat?.or (firstFloatItem? rest)

/-- The first float among the members. -/
def firstFloatMember? : List (String × Json) → Option (Finite binary64)
  | [] => none
  | (_, value) :: rest => value.firstFloat?.or (firstFloatMember? rest)

end

/-- Items hold no float when neither the first nor any other does. -/
theorem firstFloatItem?_cons_eq_none_iff {item : Json} {rest : List Json} :
    firstFloatItem? (item :: rest) = none ↔
      item.firstFloat? = none ∧ firstFloatItem? rest = none := by
  simp [firstFloatItem?]

/-- Members hold no float when neither the first nor any other does. -/
theorem firstFloatMember?_cons_eq_none_iff {key : String} {value : Json}
    {rest : List (String × Json)} : firstFloatMember? ((key, value) :: rest) = none ↔
      value.firstFloat? = none ∧ firstFloatMember? rest = none := by
  simp [firstFloatMember?]

end Json

end Warrant
