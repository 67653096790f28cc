import Warrant.Identity.PolicyId
import Warrant.Json.Printer
import Warrant.Json.Record
import Warrant.Text.Blank

/-! Rows of policy lists: what a user may do, and at what cost. -/

namespace Warrant

/-- A policy that grants an action, perhaps at a cost. -/
structure Offer where
  policy : PolicyId
  action : String
  cost : Option String
deriving DecidableEq

namespace Offer

/-- The members of a row; a cost that is not known is left out. -/
def toJson (offer : Offer) : Json :=
  .obj ([("policy_id", offer.policy.toJson), ("action", .str offer.action)] ++
    offer.cost.toList.map fun cost => ("cost", .str cost))

/-- A cost as a text: a string, or a number as it is written. -/
def costText? : Json → Option String
  | .str text => some text
  | .int n => some (Json.int n).compact
  | .float x => some (Json.float x).compact
  | _ => none

/-- Reads a row, whose cost is dropped when it is neither a text nor a number. -/
def ofJson? (json : Json) : Option Offer := do
  let policy ← (← json.member? "policy_id").text?
  let action ← (← json.member? "action").text?
  return ⟨⟨policy⟩, action, (json.member? "cost").bind costText?⟩

/-- The rows of a list without those that are malformed. -/
def listOf (json : Json) : List Offer :=
  (json.items?.getD []).filterMap ofJson?

/-- Reads a row by its type, where a cost has to be a text. -/
def ofDocument? (document : Document) : Option Offer := do
  match ← document.fields? .ignored ["policy_id", "action", "cost"] with
  | [some policy, some action, cost] =>
    let policy ← PolicyId.ofDocument? policy
    let action ← action.text?
    let cost ← Document.optional? Document.text? cost
    return ⟨policy, action, cost⟩
  | _ => none

/-- The number that a cost writes between blanks. -/
def costValue? (offer : Offer) : Option (Binary binary64) :=
  offer.cost.bind fun cost => Binary.read? binary64 (Text.trim cost.toList)

/-- Whether the policy costs anything. A cost that is unknown or unreadable counts. -/
def isPaid (offer : Offer) : Bool :=
  match offer.costValue? with
  | some value => !value.isZero
  | none => true

end Offer

end Warrant
