import Warrant.Identity.RuleId
import Warrant.Text.Numeral

/-! Reasons to turn down what a person entered, worded for that person. -/

namespace Warrant

/-- The fields of a circle on the map, in the order in which they are checked. -/
inductive GeofenceField where
  | latitude
  | longitude
  | radius
deriving DecidableEq

/-- The label of a field. -/
def GeofenceField.label : GeofenceField → String
  | .latitude => "Latitude"
  | .longitude => "Longitude"
  | .radius => "Radius"

/-- Why a rule or a delegation was turned down. -/
inductive Rejection where
  | blank (field : GeofenceField)
  | notANumber (field : GeofenceField) (input : String)
  | emptyGroup
  | unknownRule (id : RuleId)
  | noRuleKind
  | noUsers
  | noActions
  | unknownUser (key : String)
  | unknownAction (key : String)
  | unknownObligation (key : String)
  | noSuchTier (index available : Nat)
deriving DecidableEq

/-- The complaint about an entry. -/
def Rejection.message : Rejection → String
  | .blank field => field.label ++ " cannot be empty"
  | .notANumber field input => field.label ++ " must be a number, got " ++ Text.quoted input
  | .emptyGroup => "Rule list is empty"
  | .unknownRule id => "Unknown rule " ++ id.write
  | .noRuleKind => "Select a rule type"
  | .noUsers => "No users selected"
  | .noActions => "No actions selected"
  | .unknownUser key => "Unknown user " ++ Text.quoted key
  | .unknownAction key => "Unknown action " ++ Text.quoted key
  | .unknownObligation key => "Unknown obligation " ++ Text.quoted key
  | .noSuchTier index available =>
    "Cost tier " ++ String.ofList (Text.natural index) ++ " out of range (" ++
      String.ofList (Text.natural available) ++ " available)"

end Warrant
