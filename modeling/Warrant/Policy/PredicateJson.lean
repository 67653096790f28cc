import Warrant.Json.Basic
import Warrant.Policy.Predicate

/-! Predicates as JSON values. Reading is strict inside a tree: a part that is none spoils the
whole, because a conjunction with a part left out would permit more. -/

namespace Warrant

namespace Fact

/-- A fact is an object with a type and a value. -/
def toJson (fact : Fact) : Json :=
  .obj [("type", .str fact.type), ("value", .str fact.value)]

/-- A fact holds no float. -/
@[simp] theorem firstFloat?_toJson (fact : Fact) : fact.toJson.firstFloat? = none := by
  -- Both of its members are strings.
  simp [toJson, Json.firstFloat?, Json.firstFloatMember?]

/-- The fact in an object whose type and value are strings; other members do not matter. -/
def ofJson? (json : Json) : Option Fact := do
  let type ← (← json.member? "type").text?
  let value ← (← json.member? "value").text?
  return ⟨type, value⟩

end Fact

namespace Obligations

/-- Obligations are an object with the list of their facts. -/
def toJson (obligations : Obligations) : Json :=
  .obj [("obligations", .arr (obligations.map Fact.toJson))]

/-- Obligations hold no float. -/
@[simp] theorem firstFloat?_toJson (obligations : Obligations) :
    (toJson obligations).firstFloat? = none := by
  -- The walk goes from fact to fact.
  have items : Json.firstFloatItem? (obligations.map Fact.toJson) = none := by
    induction obligations with
    | nil => rfl
    | cons fact rest ih => simp [Json.firstFloatItem?, ih]
  simp [toJson, Json.firstFloat?, Json.firstFloatMember?, items]

/-- The obligations in an object, all of which have to be facts. -/
def ofJson? (json : Json) : Option Obligations := do
  let items ← (← json.member? "obligations").items?
  items.mapM Fact.ofJson?

end Obligations

namespace Predicate

/-- An operation on a list of attributes. -/
def operation (name : String) (attributes : List Json) : Json :=
  .obj [("operation", .str name), ("attribute_list", .arr attributes)]

/-- The floats in an operation are those of its attributes. -/
@[simp] theorem firstFloat?_operation (name : String) (attributes : List Json) :
    (operation name attributes).firstFloat? = Json.firstFloatItem? attributes := by
  -- The name is a string.
  simp [operation, Json.firstFloat?, Json.firstFloatMember?]

mutual

/-- The JSON value of a predicate, with the members of its objects in their declared order. -/
def toJson : Predicate → Json
  | .empty => .obj []
  | .fact leaf => leaf.toJson
  | .logical connective operands => operation connective.name (operandsToJson operands)
  | .comparable comparison left right => operation comparison.name [left.toJson, right.toJson]
  | .obligations list => Obligations.toJson list
  | .conditional condition ifTrue ifFalse =>
    operation "if" [condition.toJson, Obligations.toJson ifTrue, Obligations.toJson ifFalse]

/-- The JSON values of operands. -/
def operandsToJson : List Predicate → List Json
  | [] => []
  | operand :: rest => operand.toJson :: operandsToJson rest

end

mutual

/-- A predicate holds no float. -/
@[simp] theorem firstFloat?_toJson : ∀ predicate : Predicate, predicate.toJson.firstFloat? = none
  -- By induction on the predicate: its leaves are facts and obligations.
  | .empty => by simp [toJson, Json.firstFloat?, Json.firstFloatMember?]
  | .fact leaf => by simp [toJson]
  | .logical _ operands => by simp [toJson, firstFloatItem?_operandsToJson operands]
  | .comparable _ left right => by
    simp [toJson, Json.firstFloatItem?, firstFloat?_toJson left, firstFloat?_toJson right]
  | .obligations list => by simp [toJson]
  | .conditional condition _ _ => by
    simp [toJson, Json.firstFloatItem?, firstFloat?_toJson condition]

/-- Operands hold no float. -/
theorem firstFloatItem?_operandsToJson : ∀ operands : List Predicate,
    Json.firstFloatItem? (operandsToJson operands) = none
  | [] => by simp [operandsToJson, Json.firstFloatItem?]
  | operand :: rest => by
    simp [operandsToJson, Json.firstFloatItem?, firstFloat?_toJson operand,
      firstFloatItem?_operandsToJson rest]

end

/-- The name of the operation of an object. -/
def operationOf? (json : Json) : Option String :=
  (json.member? "operation").bind Json.text?

/-- A part that was read and is list-like. -/
def listLike? (part : Option Predicate) : Option Predicate :=
  part.filter isListLike

/-- A decision from its condition, which was read before, and the JSON values of its obligations, of
which the second may be left out. -/
def conditionalOf? (json : Json) (parts : List (Option Predicate)) : Option Predicate := do
  if operationOf? json ≠ some "if" then none
  -- The condition is taken as it was read, and the obligations are read from the values themselves.
  let items ← (← json.member? "attribute_list").items?
  match parts, items with
  | [condition, _], [_, ifTrue] =>
    return .conditional (← listLike? condition) (← Obligations.ofJson? ifTrue) []
  | [condition, _, _], [_, ifTrue, ifFalse] =>
    return .conditional (← listLike? condition) (← Obligations.ofJson? ifTrue)
      (← Obligations.ofJson? ifFalse)
  | _, _ => none

/-- Operands under the connective of an object, from the parts that were read before. -/
def logicalOf? (json : Json) (parts : List (Option Predicate)) : Option Predicate := do
  let connective ← Connective.ofName? (← operationOf? json)
  if parts.length < 2 then none
  else return .logical connective (← parts.mapM listLike?)

/-- The comparison of an object, from the parts that were read before. -/
def comparableOf? (json : Json) (parts : List (Option Predicate)) : Option Predicate := do
  let comparison ← Comparison.ofName? (← operationOf? json)
  match parts with
  | [left, right] => return .comparable comparison (← left) (← right)
  | _ => none

/-- The predicate of a JSON value whose attributes were read before. The shapes overlap, and of
those that fit the first counts: a decision, a connective, a comparison, obligations, a fact. -/
def ofParts? (json : Json) (parts : Option (List (Option Predicate))) : Option Predicate :=
  (parts.bind (conditionalOf? json)).or <|
  (parts.bind (logicalOf? json)).or <|
  (parts.bind (comparableOf? json)).or <|
  ((Obligations.ofJson? json).map .obligations).or <|
  (Fact.ofJson? json).map .fact

mutual

/-- Reads a predicate. -/
def ofJson? : Json → Option Predicate
  | .obj members => ofParts? (.obj members) (attributesOf? members)
  | _ => none

/-- Reads the attributes listed in an object, if it lists any. -/
def attributesOf? : List (String × Json) → Option (List (Option Predicate))
  | [] => none
  | (key, value) :: rest => if key = "attribute_list" then listOf? value else attributesOf? rest

/-- Reads the items of an array. -/
def listOf? : Json → Option (List (Option Predicate))
  | .arr items => some (itemsOf items)
  | _ => none

/-- Reads every item by itself. -/
def itemsOf : List Json → List (Option Predicate)
  | [] => []
  | item :: rest => ofJson? item :: itemsOf rest

end

end Predicate

end Warrant
