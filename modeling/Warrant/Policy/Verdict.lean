import Warrant.Policy.Reader

/-! Verdicts on the identifiers of policies in a text. -/

namespace Warrant

/-- What a check of a policy found: that its identifier is the one of its content, or that it is
not. -/
inductive Verdict where
  | confirmed (id : PolicyId)
  | mismatch (declared computed : PolicyId)
deriving DecidableEq

/-- Why there are no verdicts. -/
inductive VerificationFault where
  | notJson
  | policy (cause : PolicyFault)
deriving DecidableEq

namespace Verdict

/-- The verdict on a policy, unless its hash function is not supported. -/
def ofPolicy (policy : Policy) : Except VerificationFault Verdict :=
  match policy.verifyId with
  | .ok () => .ok (.confirmed policy.id)
  | .error (.mismatch declared computed) => .ok (.mismatch declared computed)
  | .error (.unsupported cause) => .error (.policy (.unsupported cause))

/-- The policies of a value: the items of an array, or the value itself. -/
def policiesOf (json : Json) : Except VerificationFault (List Policy) :=
  (json.items?.getD [json]).mapM fun item => (Policy.ofJson item).mapError .policy

/-- The verdicts on one policy or on a list of policies. All policies are read before any is
checked. -/
def ofText (text : String) : Except VerificationFault (List Verdict) :=
  match Json.parse? text with
  | none => .error .notJson
  | some json => do
    let policies ← policiesOf json
    policies.mapM ofPolicy

/-- Whether the identifier was confirmed. -/
def isConfirmed : Verdict → Bool
  | .confirmed _ => true
  | .mismatch _ _ => false

/-- The line that reports a verdict. -/
def line : Verdict → String
  | .confirmed id => "OK       " ++ id.text
  | .mismatch declared computed =>
    "MISMATCH " ++ declared.text ++ " (computed " ++ computed.text ++ ")"

end Verdict

end Warrant
