import Warrant.CommandLine.Arguments
import Warrant.CommandLine.Failure
import Warrant.Exchange.Store
import Warrant.Json.Yaml

/-! The commands of the program, over any host that keeps files and settings. -/

namespace Warrant

/-- What the program needs of its surroundings: texts of files, a way to store one in a folder that
need not be there yet, and the settings of its environment. -/
structure Host (m : Type → Type) where
  read : String → m (Option String)
  save : String → String → m Bool
  setting : String → m (Option String)

/-- How a command ends. -/
inductive Status where
  | done
  | mismatched
  | failed (cause : Failure)
deriving DecidableEq

/-- What a command leaves: the lines it prints, and how it ends. -/
structure Outcome where
  lines : List String
  status : Status
deriving DecidableEq

/-- The exit code tells success from everything else. -/
def Outcome.exitCode (outcome : Outcome) : UInt32 :=
  if outcome.status = .done then 0 else 1

/-- How the program ends: on its arguments, or with a command. -/
inductive Ending where
  | halted (halt : Halt)
  | ran (outcome : Outcome)
deriving DecidableEq

namespace Ending

/-- The lines that are printed. -/
def lines : Ending → List String
  | .halted halt => halt.lines
  | .ran outcome => outcome.lines

/-- The exit code of the program. -/
def exitCode : Ending → UInt32
  | .halted halt => halt.exitCode
  | .ran outcome => outcome.exitCode

end Ending

/-- The outcome of lines that may have failed to come about. -/
def Outcome.ofLines : Except Failure (List String) → Outcome
  | .ok lines => ⟨lines, .done⟩
  | .error cause => ⟨[], .failed cause⟩

/-- A file that was asked for: its path, and its text if there is one. -/
structure Source where
  path : String
  text : Option String
deriving DecidableEq

namespace Source

/-- The text of a file that has to be readable. -/
def content (source : Source) : Except Failure String :=
  match source.text with
  | some text => .ok text
  | none => .error (.unreadable source.path)

/-- The content of a file that has to be of some form. -/
def parse {α : Type} (read : String → Option α) (source : Source) : Except Failure α := do
  match read (← source.content) with
  | some value => return value
  | none => throw (.unparsable source.path)

end Source

/-- Reads a whole file as a document that nests at most so many levels, if its type admits it. -/
def readFile? {α : Type} (read : Document → Option α) (text : String) : Option α := do
  let document ← Document.read? (← Yaml.jsonText? text.toList)
  if document.depth ≤ 128 then read document else none

namespace Program

/-- The rule in a file. -/
def loadRule (source : Source) : Except Failure RuleSpec :=
  source.parse (readFile? RuleSpec.ofDocument?)

/-- The delegation in a file. -/
def loadDelegation (source : Source) : Except Failure DelegationFile :=
  source.parse (readFile? DelegationFile.ofDocument?)

/-- The catalog in a file, or that of the reference device when no file is named. -/
def loadCatalog : Option Source → Except Failure Catalog
  | some source => source.parse Catalog.ofFile?
  | none => .ok .reference

/-- The rule that a file lays down. -/
def buildRule (spec : RuleSpec) : Except Failure Rule :=
  match spec.toRule 0 with
  | .ok (rule, _) => .ok rule
  | .error cause => .error (.rule cause)

/-- The predicate of the rule in a file, with the members of its objects in key order. -/
def compile (rule : Source) : Except Failure Json := do
  let rule ← buildRule (← loadRule rule)
  return rule.predicate.toJson.sorted

/-- The policies of the delegation in a file, or their previews. -/
def policies (catalog : Catalog) (delegation : Source) (preview : Bool) :
    Except Failure (List Policy) := do
  let file ← loadDelegation delegation
  let (delegation, book) ← (file.resolve catalog).mapError .delegation
  (delegation.assembleEach book preview).mapError .assembly

/-- The policies of the delegation in a file with the catalog in another. Previews cannot be stored.
-/
def assemble (catalog : Option Source) (delegation : Source) (preview stored : Bool) :
    Except Failure (List Policy) := do
  if preview ∧ stored then throw .previewStored
  policies (← loadCatalog catalog) delegation preview

/-- The requests for the policies of the delegation in a file, signed with the key of the owner. -/
def requests (catalog : Option Source) (delegation : Source) (owner : String) (pair : KeyPair) :
    Except Failure (List DelegateRequest) := do
  let catalog ← loadCatalog catalog
  -- What is signed is never a preview.
  let policies ← policies catalog delegation false
  policies.mapM fun policy =>
    (DelegateRequest.sign policy owner catalog.device pair).mapError .request

/-- The pair of keys in a setting of the environment. -/
def loadKey (name : String) (secret : Option String) : Except Failure KeyPair :=
  (KeyPair.ofVariable name secret).mapError (.noKey name)

/-- The verdicts on the policies in a file. -/
def verify (policy : Source) : Except Failure (List Verdict) := do
  (Verdict.ofText (← policy.content)).mapError (.unverified policy.path)

/-- The outcome of a check, which ends well only when every identifier was confirmed. -/
def reportVerdicts : Except Failure (List Verdict) → Outcome
  | .ok verdicts =>
    ⟨verdicts.map Verdict.line, if verdicts.all Verdict.isConfirmed then .done else .mismatched⟩
  | .error cause => ⟨[], .failed cause⟩

/-- The lines that show policies. -/
def showPolicies (policies : List Policy) : List String :=
  policies.map fun policy => policy.toJson.pretty

variable {m : Type → Type} [Monad m]

/-- A file with what the host has under its path. -/
def source (host : Host m) (path : String) : m Source := do
  return ⟨path, ← host.read path⟩

/-- The file of a path that need not be named. -/
def optionalSource (host : Host m) : Option String → m (Option Source)
  | some path => do return some (← source host path)
  | none => return none

/-- Shows policies, and then stores them if a path is named. -/
def showAndStore (host : Host m) (policies : List Policy) : Option String → m Outcome
  | none => return ⟨showPolicies policies, .done⟩
  | some path => do
    let saved ← host.save path (storedText policies)
    return ⟨showPolicies policies, if saved then .done else .failed (.unstored path)⟩

/-- Carries out an invocation. -/
def run (host : Host m) : Invocation → m Outcome
  | .compile rule => do
    let tree := compile (← source host rule)
    return .ofLines (tree.map fun tree => [tree.pretty])
  | .assemble delegation catalog preview store => do
    -- The catalog is read before the delegation, so that its complaint comes first.
    let catalog ← optionalSource host catalog
    let delegation ← source host delegation
    match assemble catalog delegation preview store.isSome with
    | .ok policies => showAndStore host policies store
    | .error cause => return ⟨[], .failed cause⟩
  | .verify policy => do
    return reportVerdicts (verify (← source host policy))
  | .delegate delegation catalog owner keyVariable => do
    -- The key is looked up first, and loaded only after both files have been read.
    let secret ← host.setting keyVariable
    let catalog ← optionalSource host catalog
    let delegation ← source host delegation
    return .ofLines do
      let pair ← loadKey keyVariable secret
      let requests ← requests catalog delegation owner pair
      return requests.map fun request => request.toJson.compact

/-- Does what the arguments ask for. -/
def start (host : Host m) (arguments : List String) : m Ending :=
  match Invocation.ofArguments arguments with
  | .ok invocation => do return .ran (← run host invocation)
  | .error halt => return .halted halt

end Program

end Warrant
