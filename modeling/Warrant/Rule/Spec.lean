import Warrant.Json.Scalar
import Warrant.Rule.Draft
import Warrant.Time.Rfc3339

/-! Rules as they are written in files. A name that is not known spoils the whole, so that no
misspelt field drops a constraint. -/

namespace Warrant

/-- A rule as it is written, with its entries unchecked. -/
inductive RuleSpec where
  | time (start finish : String)
  | location (draft : GeofenceDraft)
  | cap (max : Nat)
  | group (satisfy : Satisfy) (rules : List RuleSpec)

/-- Why the rule of a file cannot be built. -/
inductive SpecFault where
  | start (cause : InvalidInstant)
  | finish (cause : InvalidInstant)
  | rejected (cause : Rejection)
deriving DecidableEq

/-- The complaints about a rule, the outermost first. -/
def SpecFault.chain : SpecFault → List String
  | .start cause => ["invalid `from`", cause.message]
  | .finish cause => ["invalid `until`", cause.message]
  | .rejected cause => [cause.message]

namespace RuleSpec

/-- The kinds of rules in files. -/
inductive Kind where
  | time
  | location
  | cap
  | group
deriving DecidableEq

namespace Kind

/-- The kind of a name. -/
def ofName? (name : String) : Option Kind :=
  if name = "time" then some .time
  else if name = "location" then some .location
  else if name = "execute_count" then some .cap
  else if name = "multiple" then some .group
  else none

/-- The kind of a number. -/
def ofIndex? : Nat → Option Kind
  | 0 => some .time
  | 1 => some .location
  | 2 => some .cap
  | 3 => some .group
  | _ => none

/-- Reads a kind by its name. A rule inside a group may give its number instead. -/
def ofDocument? (nested : Bool) (document : Document) : Option Kind :=
  (document.text?.bind ofName?).or
    (if nested then (document.natBelow? 4).bind ofIndex? else none)

/-- The names of the fields that a rule of a kind may have. -/
def fields : Kind → List String
  | .time => ["from", "until"]
  | .location => ["latitude", "longitude", "radius", "unit"]
  | .cap => ["max"]
  | .group => ["satisfy", "rules"]

end Kind

/-- A text in a rule, where bare words do not count as texts. -/
def text? (document : Document) : Option String :=
  match document.scalar? with
  | some (.text text) => some text
  | _ => none

/-- A coordinate as a text, or as a number that is put into plain digits. -/
def coordinate? (document : Document) : Option String :=
  match document.scalar? with
  | some (.text text) => some text
  | some (.float value) => some (String.ofList (value.write .plain))
  | some (.int n) =>
    let value := Decimal.toBinary binary64 ⟨n < 0, n.natAbs, 0⟩
    some (String.ofList (value.write .plain))
  | _ => none

/-- A cap of 32 bits. -/
def cap? (document : Document) : Option Nat :=
  match document.scalar? with
  | some (.int (.ofNat n)) => if n < Nat.pow 2 32 then some n else none
  | _ => none

/-- A name from a fixed choice: a string, or an object that maps the name to null or to nothing. -/
def choice? {α : Type} (named : String → Option α) : Document → Option α
  | .record [(key, .record [])] => key.bind named
  | document => document.choice? named

/-- Reads the fields of a rule, given a reader for the rules inside a group. -/
def ofFields? (inner : Document → Option RuleSpec) (kind : Kind) (fields : Document) :
    Option RuleSpec := do
  match kind, ← fields.fields? .refused kind.fields with
  | .time, [some start, some finish] => return .time (← text? start) (← text? finish)
  | .location, [some latitude, some longitude, some radius, unit] =>
    let latitude ← coordinate? latitude
    let longitude ← coordinate? longitude
    let radius ← coordinate? radius
    -- Without a unit kilometers are meant.
    let unit ← Document.withDefault? .kilometers (choice? DistanceUnit.ofName?) unit
    return .location ⟨latitude, longitude, radius, unit⟩
  | .cap, [some max] => return .cap (← cap? max)
  | .group, [satisfy, some rules] =>
    -- Without a word on it all of the rules have to hold.
    let satisfy ← Document.withDefault? .all (choice? Satisfy.ofName?) satisfy
    return .group satisfy (← rules.listOf? inner)
  | _, _ => none

/-- Reads a rule that nests at most so many levels, inside a group or not. -/
def read? : Nat → Bool → Document → Option RuleSpec
  | 0, _, _ => none
  | levels + 1, nested, document => do
    let (kind, fields) ← document.untag? "kind"
    ofFields? (read? levels true) (← Kind.ofDocument? nested kind) fields

/-- Reads a rule. -/
def ofDocument? (document : Document) : Option RuleSpec :=
  read? document.depth false document

/-- The constraint of a window as it is written: an end that comes before the start pulls the start
to one hour before it. -/
def window (start finish : String) : Except SpecFault Window := do
  let start ← (Instant.readUniversal start).mapError .start
  let finish ← (Instant.readUniversal finish).mapError .finish
  return (Window.startingAt start).setFinish finish

/-- The identifier that is given out after so many others. -/
def freshId (count : Nat) : RuleId :=
  ⟨.ofNat 128 count⟩

mutual

/-- The rule of a file under an identifier that is still free, and the count of identifiers that
were given out after it was built. -/
def toRule (count : Nat) : RuleSpec → Except SpecFault (Rule × Nat)
  | .time start finish => do
    return (⟨freshId count, .time (← window start finish)⟩, count + 1)
  | .location draft => do
    return (⟨freshId count, .location (← draft.validate.mapError .rejected)⟩, count + 1)
  | .cap max => return (⟨freshId count, .cap max⟩, count + 1)
  | .group satisfy rules => do
    -- The members take their identifiers before the group does.
    let (members, count) ← toRules count rules
    match Constraint.ofMembers? satisfy members with
    | some constraint => return (⟨freshId count, constraint⟩, count + 1)
    | none => throw (.rejected .emptyGroup)

/-- The rules of a file one after the other. -/
def toRules (count : Nat) : List RuleSpec → Except SpecFault (List Rule × Nat)
  | [] => return ([], count)
  | spec :: rest => do
    let (rule, count) ← toRule count spec
    let (rules, count) ← toRules count rest
    return (rule :: rules, count)

end

end RuleSpec

end Warrant
