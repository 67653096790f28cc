import Warrant.Delegation.Catalog
import Warrant.Policy.Basic
import Warrant.Rule.Book
import Warrant.Rule.Compile

/-! Delegations, and the policies that put them into effect. -/

namespace Warrant

/-- What an owner delegates: who may do what, under which rules and with which obligations. -/
structure Delegation where
  grantRule : Option RuleId
  denyRule : Option RuleId
  users : List Catalog.User
  actions : List Catalog.Action
  cap : Option Nat
  obligationOnGrant : Option Catalog.Obligation
  obligationOnDeny : Option Catalog.Obligation
  cost : String
  hashFunction : String
deriving DecidableEq

/-- The rules that a delegation refers to. -/
structure ResolvedRules where
  grant : Option Rule
  deny : Option Rule

/-- Why a delegation has no policy. -/
inductive AssemblyError where
  | rejected (cause : Rejection)
  | unsupported (cause : UnsupportedAlgorithm)
deriving DecidableEq

/-- The complaint about a delegation. -/
def AssemblyError.message : AssemblyError → String
  | .rejected cause => cause.message
  | .unsupported cause => cause.message

namespace Delegation

/-- The delegation of nothing to nobody. -/
def empty : Delegation :=
  ⟨none, none, [], [], none, none, none, "", Policy.defaultHashFunction⟩

/-- The rule under an identifier, if there is an identifier. -/
def findRule (book : Book) : Option RuleId → Except Rejection (Option Rule)
  | none => .ok none
  | some id =>
    match book.get? id with
    | some rule => .ok (some rule)
    | none => .error (.unknownRule id)

/-- Looks up the rules of a delegation, that of the grant first. -/
def resolve (delegation : Delegation) (book : Book) : Except Rejection ResolvedRules := do
  let grant ← findRule book delegation.grantRule
  let deny ← findRule book delegation.denyRule
  return ⟨grant, deny⟩

/-- Users without those whose public identity came before. -/
def distinct : List Catalog.User → List Catalog.User
  | [] => []
  | user :: rest => user :: (distinct rest).filter fun other => other.publicId ≠ user.publicId

/-- The predicate that the subject is one of some users, if there are any. -/
def usersTerm (users : List Catalog.User) (masked : Bool) : List Predicate :=
  match distinct users with
  | [] => []
  | users => [.combine .or (users.map fun user => user.predicate masked)]

/-- The terms of the grant: the rule, the users, the action and the cap, as far as there are any. -/
def grantTerms (delegation : Delegation) (rule : Option Rule) (action : Option Catalog.Action)
    (masked : Bool) : List Predicate :=
  rule.toList.map Rule.predicate ++ usersTerm delegation.users masked ++
    action.toList.map Catalog.Action.predicate ++ delegation.cap.toList.map capPredicate

/-- The body of the policy for an action. -/
def body (delegation : Delegation) (rules : ResolvedRules) (action : Option Catalog.Action)
    (masked : Bool) : Body where
  obligationsOnDeny := delegation.obligationOnDeny.map fun obligation => [obligation.fact]
  obligationsOnGrant := delegation.obligationOnGrant.map fun obligation => [obligation.fact]
  -- Without a rule for the denial its predicate is empty, and the grant combines its terms anyway.
  deny := (rules.deny.map Rule.predicate).getD .empty
  grant := .combine .and (delegation.grantTerms rules.grant action masked)

/-- The policy for one action or for none, or its preview, in which the users are masked. -/
def assemble (delegation : Delegation) (book : Book) (action : Option Catalog.Action)
    (masked : Bool) : Except AssemblyError Policy := do
  let rules ← (delegation.resolve book).mapError .rejected
  let body := delegation.body rules action masked
  -- A preview hides its identifier and has no use for it, although its hash function has to be
  -- known.
  let policy :=
    if masked then Policy.preview delegation.hashFunction body delegation.cost
    else Policy.make delegation.hashFunction body delegation.cost
  policy.mapError .unsupported

/-- With the rules of a delegation at hand, its policy is made or its preview given. -/
theorem assemble_of_resolve {delegation : Delegation} {book : Book} {rules : ResolvedRules}
    (resolved : delegation.resolve book = .ok rules) (action : Option Catalog.Action)
    (masked : Bool) :
    delegation.assemble book action masked =
      (if masked then
        Policy.preview delegation.hashFunction (delegation.body rules action masked) delegation.cost
      else
        Policy.make delegation.hashFunction (delegation.body rules action masked)
          delegation.cost).mapError .unsupported := by
  rw [assemble, resolved]
  rfl

/-- Without the rules of a delegation there is neither a policy nor a preview. -/
theorem assemble_of_resolve_eq_error {delegation : Delegation} {book : Book} {cause : Rejection}
    (failed : delegation.resolve book = .error cause) (action : Option Catalog.Action)
    (masked : Bool) :
    delegation.assemble book action masked = .error (.rejected cause) := by
  rw [assemble, failed]
  rfl

/-- One policy for every action of a delegation, which needs users and actions. -/
def assembleEach (delegation : Delegation) (book : Book) (masked : Bool) :
    Except AssemblyError (List Policy) :=
  if delegation.users = [] then .error (.rejected .noUsers)
  else if delegation.actions = [] then .error (.rejected .noActions)
  else delegation.actions.mapM fun action => delegation.assemble book (some action) masked

end Delegation

end Warrant
