import Warrant.Delegation.Basic
import Warrant.Delegation.CatalogReader
import Warrant.Rule.Spec

/-! Delegations as they are written in files, where users, actions and obligations have the names of
a catalog. -/

namespace Warrant

/-- A delegation as it is written, with its names unresolved. -/
structure DelegationFile where
  users : List String
  actions : List String
  grant : Option RuleSpec
  deny : Option RuleSpec
  cap : Option Nat
  obligationOnGrant : Option String
  obligationOnDeny : Option String
  costIndex : Nat
  hashFunction : String

/-- Why the delegation of a file cannot be resolved. -/
inductive DelegationFault where
  | grant (cause : SpecFault)
  | deny (cause : SpecFault)
  | rejected (cause : Rejection)
deriving DecidableEq

/-- The complaints about a delegation, the outermost first. -/
def DelegationFault.chain : DelegationFault → List String
  | .grant cause => "invalid grant rule" :: cause.chain
  | .deny cause => "invalid deny rule" :: cause.chain
  | .rejected cause => [cause.message]

namespace DelegationFile

/-- The names of the fields. -/
def fields : List String :=
  ["users", "actions", "grant", "deny", "max_executions", "obligation_grant", "obligation_deny",
    "cost_index", "hash_function"]

/-- Reads a delegation. Only the users and the actions have to be there. -/
def ofDocument? (document : Document) : Option DelegationFile := do
  match ← document.namedFields? .refused fields with
  | [some users, some actions, grant, deny, cap, obligationOnGrant, obligationOnDeny, costIndex,
      hashFunction] =>
    let users ← users.listOf? Document.bareText?
    let actions ← actions.listOf? Document.bareText?
    let grant ← Document.optional? RuleSpec.ofDocument? grant
    let deny ← Document.optional? RuleSpec.ofDocument? deny
    -- The cap is a number of 32 bits, and the index one of a machine word.
    let cap ← Document.optional? (Document.natBelow? (Nat.pow 2 32)) cap
    let obligationOnGrant ← Document.optional? Document.bareText? obligationOnGrant
    let obligationOnDeny ← Document.optional? Document.bareText? obligationOnDeny
    let costIndex ← Document.withDefault? 0 (Document.natBelow? (Nat.pow 2 64)) costIndex
    let hashFunction ←
      Document.withDefault? Policy.defaultHashFunction Document.bareText? hashFunction
    return ⟨users, actions, grant, deny, cap, obligationOnGrant, obligationOnDeny, costIndex,
      hashFunction⟩
  | _ => none

/-- Enters the rule of a file into a book, and gives the identifier under which it stands there. -/
def place (book : Book) (count : Nat) : Option RuleSpec →
    Except SpecFault (Option RuleId × Book × Nat)
  | none => return (none, book, count)
  | some spec => do
    let (rule, count) ← spec.toRule count
    -- The rule is entered under the identifier that it was built with.
    return (some rule.id, book.enter rule, count)

/-- The delegation of a file with the names of a catalog, and the book of its rules. -/
def resolve (file : DelegationFile) (catalog : Catalog) :
    Except DelegationFault (Delegation × Book) := do
  -- The rule for the grant is built first, and that for the denial takes the identifiers behind it.
  let (grantRule, book, count) ← (place .empty 0 file.grant).mapError .grant
  let (denyRule, book, _) ← (place book count file.deny).mapError .deny
  let users ← (file.users.mapM catalog.user).mapError .rejected
  let actions ← (file.actions.mapM catalog.action).mapError .rejected
  let obligationOnGrant ← (file.obligationOnGrant.mapM catalog.obligation).mapError .rejected
  let obligationOnDeny ← (file.obligationOnDeny.mapM catalog.obligation).mapError .rejected
  let cost ← (catalog.cost file.costIndex).mapError .rejected
  return (⟨grantRule, denyRule, users, actions, file.cap, obligationOnGrant, obligationOnDeny, cost,
    file.hashFunction⟩, book)

end DelegationFile

end Warrant
