import Warrant.Policy.PredicateJson

/-! The deciding part of a policy: two predicates, and obligations for either outcome. -/

namespace Warrant

/-- What a policy decides by: the predicate of denial, the predicate of grant, and the obligations
on either outcome, which may be left open. -/
structure Body where
  obligationsOnDeny : Option Obligations
  obligationsOnGrant : Option Obligations
  deny : Predicate
  grant : Predicate
deriving DecidableEq

/-- The four members of a body. -/
inductive Slot where
  | obligationsOnDeny
  | obligationsOnGrant
  | deny
  | grant
deriving DecidableEq

/-- The name of a member. -/
def Slot.name : Slot → String
  | .obligationsOnDeny => "obligation_deny"
  | .obligationsOnGrant => "obligation_grant"
  | .deny => "policy_doc"
  | .grant => "policy_goc"

/-- Why a value is no body. -/
inductive BodyFault where
  | notAnObject
  | missing (slot : Slot)
  | malformed (slot : Slot)
deriving DecidableEq

/-- The complaint about a value. -/
def BodyFault.message : BodyFault → String
  | .notAnObject => "policy_object must be an object"
  | .missing slot => "missing " ++ slot.name
  | .malformed slot => "malformed " ++ slot.name

namespace Body

/-- The body that decides nothing. -/
def empty : Body := ⟨none, none, .empty, .empty⟩

/-- Obligations, or the empty object when they are left open. -/
def obligationsToJson : Option Obligations → Json
  | some obligations => Obligations.toJson obligations
  | none => .obj []

/-- The four members in their declared order. -/
def toJson (body : Body) : Json :=
  .obj [(Slot.obligationsOnDeny.name, obligationsToJson body.obligationsOnDeny),
    (Slot.obligationsOnGrant.name, obligationsToJson body.obligationsOnGrant),
    (Slot.deny.name, body.deny.toJson), (Slot.grant.name, body.grant.toJson)]

/-- Obligations hold no float, nor does the empty object in their place. -/
@[simp] theorem firstFloat?_obligationsToJson (obligations : Option Obligations) :
    (obligationsToJson obligations).firstFloat? = none := by
  -- They are there or left open.
  cases obligations with
  | none => rfl
  | some list => exact list.firstFloat?_toJson

/-- A body holds no float. -/
@[simp] theorem firstFloat?_toJson (body : Body) : body.toJson.firstFloat? = none := by
  -- What stands in the four slots holds none.
  simp [toJson, Json.firstFloat?, Json.firstFloatMember?]

/-- The value of a member, unless it is the empty object. -/
def filled? (json : Json) (slot : Slot) : Option Json :=
  (json.member? slot.name).filter fun value => !value.isEmptyObject

/-- Reads any value: a member that is missing or malformed counts as empty, so that a later kind of
obligation does not make a policy unreadable. -/
def ofJson (json : Json) : Body where
  obligationsOnDeny := (filled? json .obligationsOnDeny).bind Obligations.ofJson?
  obligationsOnGrant := (filled? json .obligationsOnGrant).bind Obligations.ofJson?
  deny := ((filled? json .deny).bind Predicate.ofJson?).getD .empty
  grant := ((filled? json .grant).bind Predicate.ofJson?).getD .empty

/-- The value of a member that has to be there, or nothing when it is the empty object. -/
def required (json : Json) (slot : Slot) : Except BodyFault (Option Json) :=
  match json.member? slot.name with
  | none => .error (.missing slot)
  | some value => .ok (if value.isEmptyObject then none else some value)

/-- A member that has to be there, and that has to be well formed unless it is empty. -/
def readSlot {α : Type} (read : Json → Option α) (json : Json) (slot : Slot) :
    Except BodyFault (Option α) := do
  match ← required json slot with
  | none => return none
  | some value =>
    match read value with
    | some content => return some content
    | none => throw (.malformed slot)

/-- Reads an object with all four members well formed, or names the first member that is not. -/
def ofJsonStrict (json : Json) : Except BodyFault Body := do
  if json.members? = none then throw .notAnObject
  let obligationsOnDeny ← readSlot Obligations.ofJson? json .obligationsOnDeny
  let obligationsOnGrant ← readSlot Obligations.ofJson? json .obligationsOnGrant
  let deny ← readSlot Predicate.ofJson? json .deny
  let grant ← readSlot Predicate.ofJson? json .grant
  return ⟨obligationsOnDeny, obligationsOnGrant, deny.getD .empty, grant.getD .empty⟩

end Body

end Warrant
