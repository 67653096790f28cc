import Warrant.Proofs.Delegation.Assembly
import Warrant.Proofs.Rule.Renaming

/-! Identifiers of rules leave no trace in policies: a delegation has the same policy when its rules
have other names. -/

namespace Warrant

/-- A rejection that names a rule names it by its new identifier. -/
def Rejection.rename (outer : RuleId → RuleId) : Rejection → Rejection
  | .unknownRule id => .unknownRule (outer id)
  | rejection => rejection

/-- An error about a rule names it by its new identifier. -/
def AssemblyError.rename (outer : RuleId → RuleId) : AssemblyError → AssemblyError
  | .rejected cause => .rejected (cause.rename outer)
  | .unsupported cause => .unsupported cause

/-- The rules of a delegation under new identifiers. -/
def ResolvedRules.rename (outer inner : RuleId → RuleId) (rules : ResolvedRules) : ResolvedRules :=
  ⟨rules.grant.map (Rule.rename outer inner), rules.deny.map (Rule.rename outer inner)⟩

namespace Delegation

/-- The delegation that refers to its rules by their new identifiers. -/
def rename (outer : RuleId → RuleId) (delegation : Delegation) : Delegation :=
  { delegation with
    grantRule := delegation.grantRule.map outer
    denyRule := delegation.denyRule.map outer }

/-- Rules under new identifiers make for the same body. -/
theorem body_rename (outer inner : RuleId → RuleId) (delegation : Delegation)
    (rules : ResolvedRules) (action : Option Catalog.Action) (masked : Bool) :
    (delegation.rename outer).body (rules.rename outer inner) action masked =
      delegation.body rules action masked := by
  -- Rules enter by their predicates, in the grant as in the denial.
  have grant : (rules.grant.map (Rule.rename outer inner)).toList.map Rule.predicate =
      rules.grant.toList.map Rule.predicate := by
    cases rules.grant <;> simp
  have deny : (rules.deny.map (Rule.rename outer inner)).map Rule.predicate =
      rules.deny.map Rule.predicate := by
    cases rules.deny <;> simp
  rw [body, body, grantTerms, grantTerms]
  dsimp only [rename, ResolvedRules.rename]
  rw [grant, deny]

variable {outer : RuleId → RuleId} (apart : Function.Injective outer) (inner : RuleId → RuleId)

/-- A rule is found by its new identifier when it was found by the old one, and missed when it was
missed. -/
theorem findRule_rename (book : Book) (id : Option RuleId) :
    findRule (book.rename inner apart) (id.map outer) =
      ((findRule book id).map (Option.map (Rule.rename outer inner))).mapError
        (Rejection.rename outer) := by
  -- Without an identifier there is nothing to find under either name.
  cases id with
  | none => rfl
  | some id =>
    -- The new book answers like the old one.
    rw [Option.map_some, findRule, findRule, Book.get?_rename]
    cases book.get? id <;> rfl

/-- The rules of a delegation are found by their new identifiers when they were found by the old
ones, and the same one is missed first. -/
theorem resolve_rename (delegation : Delegation) (book : Book) :
    (delegation.rename outer).resolve (book.rename inner apart) =
      ((delegation.resolve book).map (ResolvedRules.rename outer inner)).mapError
        (Rejection.rename outer) := by
  -- The grant is looked for first, and what is missed then is missed under both names.
  rw [resolve, resolve]
  dsimp only [rename]
  rw [findRule_rename, findRule_rename]
  cases findRule book delegation.grantRule with
  | error cause => rfl
  | ok grant => cases findRule book delegation.denyRule <;> rfl

/-- Under new identifiers of its rules, which stay apart, a delegation has the very policy that it
had under the old ones, whatever the members inside groups are called; or else there is the same
error, which names a missing rule by its new identifier. -/
theorem assemble_rename (delegation : Delegation) (book : Book) (action : Option Catalog.Action)
    (masked : Bool) :
    (delegation.rename outer).assemble (book.rename inner apart) action masked =
        (delegation.assemble book action masked).mapError (AssemblyError.rename outer) ∧
      ∀ policy, (delegation.rename outer).assemble (book.rename inner apart) action masked =
        .ok policy ↔ delegation.assemble book action masked = .ok policy := by
  -- The errors correspond, and an error is all that a new name can change.
  have same : (delegation.rename outer).assemble (book.rename inner apart) action masked =
      (delegation.assemble book action masked).mapError (AssemblyError.rename outer) := by
    have renamed := resolve_rename apart inner delegation book
    cases resolved : delegation.resolve book with
    | error cause =>
      rw [resolved] at renamed
      rw [assemble_of_resolve_eq_error renamed, assemble_of_resolve_eq_error resolved]
      rfl
    | ok rules =>
      -- The content is the same, and an error about its hash function names no rule.
      have unnamed (part : Except UnsupportedAlgorithm Policy) :
          (part.mapError .unsupported).mapError (AssemblyError.rename outer) =
            part.mapError .unsupported := by
        cases part <;> rfl
      rw [resolved] at renamed
      rw [assemble_of_resolve renamed, assemble_of_resolve resolved, body_rename, unnamed]
      rfl
  refine ⟨same, fun policy => ?_⟩
  rw [same, mapError_eq_ok_iff]

/-- Identifiers seven further on. -/
def sevenOn (id : RuleId) : RuleId :=
  ⟨id.bits + 7⟩

/-- Seven further on, identifiers stay apart. -/
theorem injective_sevenOn : Function.Injective sevenOn := by
  -- A sum that wraps around determines its first part.
  intro a b same
  have bits := congrArg RuleId.bits same
  simp only [sevenOn] at bits
  cases a
  cases b
  congr 1
  bv_omega

/-- Nested groups under other identifiers, whose members all get the same one, make for the same
policy. -/
theorem nested_rename :
    nested.rename sevenOn ≠ nested ∧
      ∃ policy, nested.assemble nestedBook none false = .ok policy ∧
        (nested.rename sevenOn).assemble (nestedBook.rename (fun _ => ⟨0⟩) injective_sevenOn) none
          false = .ok policy := by
  -- Delegation and book have a policy, since the rules are found and the hash function is known.
  have known : Algorithm.ofName "sha-256" = .ok .sha256 := by rfl
  have resolved : nested.resolve nestedBook = .ok ⟨nestedBook.get? ⟨3⟩, none⟩ := by rfl
  obtain ⟨policy, assembled⟩ := exists_assemble resolved known none false
  refine ⟨by decide, policy, assembled, ?_⟩
  exact ((assemble_rename injective_sevenOn _ nested nestedBook none false).2 policy).mpr assembled

end Delegation

end Warrant
