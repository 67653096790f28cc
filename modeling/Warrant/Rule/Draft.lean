import Warrant.Number.Decimal
import Warrant.Rule.Book
import Warrant.Rule.Rejection
import Warrant.Text.Blank

/-! Drafts of rules while they are edited, and the checks that make rules of them. -/

namespace Warrant

/-- The fields of a circle as they were typed. -/
structure GeofenceDraft where
  latitude : String
  longitude : String
  radius : String
  unit : DistanceUnit
deriving DecidableEq

namespace GeofenceDraft

/-- The draft without any entry. -/
def blank : GeofenceDraft := ⟨"", "", "", .kilometers⟩

/-- The draft that shows a circle. -/
def ofGeofence (fence : Geofence) : GeofenceDraft where
  latitude := String.ofList (fence.latitude.write .field)
  longitude := String.ofList (fence.longitude.write .field)
  radius := String.ofList (fence.radius.write .field)
  unit := fence.unit

/-- The finite number typed into a field. -/
def readField (field : GeofenceField) (input : String) : Except Rejection (Binary binary32) :=
  let text := Text.trim input.toList
  if text = [] then .error (.blank field)
  else
    match Binary.read? binary32 text with
    | some value => if value.isFinite then .ok value else .error (.notANumber field input)
    | none => .error (.notANumber field input)

/-- The circle of a draft, or the first field that is at fault. -/
def validate (draft : GeofenceDraft) : Except Rejection Geofence := do
  let latitude ← readField .latitude draft.latitude
  let longitude ← readField .longitude draft.longitude
  let radius ← readField .radius draft.radius
  return ⟨latitude, longitude, radius, draft.unit⟩

end GeofenceDraft

/-- Whether a draft is a single constraint or a group. -/
inductive DraftKind where
  | single
  | multiple
deriving DecidableEq

/-- The constraint that a draft of a single one edits. -/
inductive Limitation where
  | time
  | location
  | cap
deriving DecidableEq

/-- All that an editor holds about one rule, whether it is in use or not. -/
structure Draft where
  kind : Option DraftKind
  limitation : Limitation
  window : Window
  fence : GeofenceDraft
  max : Nat
  satisfy : Satisfy
  members : List RuleId
deriving DecidableEq

namespace Draft

/-- The draft of which nothing is chosen yet but a window. -/
def blank (window : Window) : Draft :=
  ⟨none, .time, window, .blank, 0, .all, []⟩

/-- The blank draft of a single constraint. -/
def single (window : Window) : Draft :=
  { blank window with kind := some .single }

/-- The draft that shows a rule; a window is needed for rules that have none. -/
def ofRule (window : Window) (rule : Rule) : Draft :=
  let draft := single window
  match rule.constraint with
  -- The finish is set on the hour after the start, as an editor does it.
  | .time shown => { draft with
      limitation := .time, window := (Window.startingAt shown.start).setFinish shown.finish }
  | .location fence => { draft with limitation := .location, fence := .ofGeofence fence }
  | .cap max => { draft with limitation := .cap, max := max }
  | .group satisfy first rest => { draft with
      kind := some .multiple, satisfy := satisfy, members := (first :: rest).map Rule.id }

/-- Adds a member at the end unless it is there. -/
def addMember (draft : Draft) (id : RuleId) : Draft :=
  if id ∈ draft.members then draft else { draft with members := draft.members ++ [id] }

/-- The draft without a member. -/
def removeMember (draft : Draft) (id : RuleId) : Draft :=
  { draft with members := draft.members.filter (· ≠ id) }

/-- Takes a member out, and tells whether it was there, because fewer members are left then. -/
def takeMember (draft : Draft) (id : RuleId) : Bool × Draft :=
  let rest := draft.removeMember id
  (rest.members.length ≠ draft.members.length, rest)

/-- The rule that a book holds for a member. -/
def findMember (book : Book) (id : RuleId) : Except Rejection Rule :=
  match book.get? id with
  | some rule => .ok rule
  | none => .error (.unknownRule id)

/-- The constraint of a draft, whose members are looked up in a book. -/
def constraint (draft : Draft) (book : Book) : Except Rejection Constraint :=
  match draft.kind, draft.limitation with
  | none, _ => .error .noRuleKind
  | some .single, .time => .ok (.time draft.window)
  | some .single, .location => draft.fence.validate.map .location
  | some .single, .cap => .ok (.cap draft.max)
  | some .multiple, _ => do
    -- A member that is unknown is complained about before the group is found empty.
    let members ← draft.members.mapM (findMember book)
    match Constraint.ofMembers? draft.satisfy members with
    | some group => .ok group
    | none => .error .emptyGroup

/-- The rule of a draft under an identifier. -/
def build (draft : Draft) (id : RuleId) (book : Book) : Except Rejection Rule :=
  (draft.constraint book).map fun constraint => ⟨id, constraint⟩

end Draft

end Warrant
