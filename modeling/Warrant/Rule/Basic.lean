import Warrant.Identity.RuleId
import Warrant.Rule.Geofence
import Warrant.Rule.Window

/-! Rules: what a person lays down about when, where and how often access is given. -/

namespace Warrant

/-- How many members of a group have to hold. -/
inductive Satisfy where
  | all
  | any
deriving DecidableEq

namespace Satisfy

/-- The mode of a name. -/
def ofName? (name : String) : Option Satisfy :=
  if name = "all" then some .all else if name = "any" then some .any else none

/-- Reads the name of a mode. -/
def ofDocument? (document : Document) : Option Satisfy :=
  document.choice? ofName?

end Satisfy

mutual

/-- What a rule asks for: a time in a window, a place in a circle, a count of executions below a
cap, or what the members of a group ask for, of which there is at least one. -/
inductive Constraint where
  | time (window : Window)
  | location (fence : Geofence)
  | cap (max : Nat)
  | group (satisfy : Satisfy) (first : Rule) (rest : List Rule)

/-- A constraint under an identifier. A group holds its members as they were when it was built. -/
structure Rule where
  id : RuleId
  constraint : Constraint

end

/-- Rules are taken for the same when they have the same identifier, whatever they ask for. -/
def Rule.isSame (a b : Rule) : Bool :=
  a.id = b.id

namespace Constraint

/-- The members of a group, and none for any other constraint. -/
def members : Constraint → List Rule
  | .group _ first rest => first :: rest
  | _ => []

/-- The group of some members, if there are any. -/
def ofMembers? (satisfy : Satisfy) : List Rule → Option Constraint
  | [] => none
  | first :: rest => some (.group satisfy first rest)

/-- Constraints that ask for the same. Members of groups are compared as rules are, by identifier.
-/
def isSame : Constraint → Constraint → Bool
  | .time a, .time b => a = b
  | .location a, .location b => a.isSame b
  | .cap a, .cap b => a = b
  | .group s a as, .group t b bs => s = t && (a :: as).map Rule.id = (b :: bs).map Rule.id
  | _, _ => false

end Constraint

end Warrant
