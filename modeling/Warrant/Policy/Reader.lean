import Warrant.Json.Value
import Warrant.Policy.Basic

/-! Policies read from JSON. -/

namespace Warrant

/-- Why a text or a value is no policy. -/
inductive PolicyFault where
  | text
  | notAnObject
  | noHashFunction
  | unsupported (cause : UnsupportedAlgorithm)
deriving DecidableEq

/-- The complaint about a text or a value. -/
def PolicyFault.message : PolicyFault → String
  | .text => "malformed policy: "
  | .notAnObject => "malformed policy: policy must be an object"
  | .noHashFunction => "malformed policy: missing hash_function"
  | .unsupported cause => cause.message

namespace Policy

/-- The text of a member that is a string. -/
def textMember? (json : Json) (key : String) : Option String :=
  (json.member? key).bind Json.text?

/-- Reads an object with a hash function. The identifier is computed when it carries none; a cost
that is missing is empty, and so is a body. -/
def ofJson (json : Json) : Except PolicyFault Policy :=
  match json.members?, textMember? json "hash_function" with
  | none, _ => .error .notAnObject
  | some _, none => .error .noHashFunction
  | some _, some hashFunction =>
    -- A body and a cost that are missing are filled in before the identifier is looked at.
    let body := ((json.member? "policy_object").map Body.ofJson).getD .empty
    let cost := (textMember? json "cost").getD ""
    match textMember? json "policy_id" with
    | some id => .ok ⟨hashFunction, ⟨id⟩, body, cost⟩
    -- An identifier that is missing, or no text, is computed.
    | none => (make hashFunction body cost).mapError .unsupported

/-- Reads the text of a policy. -/
def parse (text : String) : Except PolicyFault Policy :=
  match Json.parse? text with
  | some json => ofJson json
  | none => .error .text

/-- Reads a policy that is part of a larger document. -/
def ofDocument? (levels : Nat) (document : Document) : Option Policy := do
  (ofJson (← document.value? levels)).toOption

end Policy

end Warrant
