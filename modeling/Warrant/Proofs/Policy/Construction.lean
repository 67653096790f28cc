import Warrant.Proofs.Policy.Combine
import Warrant.Proofs.Policy.Operators

/-! Predicates that are put together part by part. What checks its parts takes exactly the parts
that are read from JSON, and whatever is built in the end is read back. -/

namespace Warrant.Predicate

/-- Operands go under a connective when there are two of them and all are list-like. -/
theorem connect_eq_ok_iff {connective : Connective} {operands : List Predicate}
    {node : Predicate} :
    connect connective operands = .ok node ↔ 2 ≤ operands.length ∧
      (∀ operand ∈ operands, operand.isListLike = true) ∧ node = .logical connective operands := by
  -- The constructor counts the operands first and looks at each of them afterwards.
  rw [connect]
  split
  · rename_i few
    exact iff_of_false nofun fun ⟨enough, _⟩ => Nat.not_lt.mpr enough few
  · rename_i enough
    rw [Nat.not_lt] at enough
    -- The first operand that is not list-like is complained about.
    cases found : operands.find? fun operand => !operand.isListLike with
    | some operand =>
      have bad := List.find?_some found
      have member := List.mem_of_find?_eq_some found
      refine iff_of_false nofun fun ⟨_, listLike, _⟩ => ?_
      simp [listLike operand member] at bad
    -- When no operand is complained about, all of them are list-like, and the node is made.
    | none =>
      have listLike : ∀ operand ∈ operands, operand.isListLike = true := by
        simpa using List.find?_eq_none.mp found
      rw [Except.ok.injEq, eq_comm, and_iff_right enough, and_iff_right listLike]

/-- Obligations are decided between on a list-like condition. -/
theorem branch_eq_ok_iff {condition : Predicate} {ifTrue ifFalse : Obligations}
    {node : Predicate} :
    branch condition ifTrue ifFalse = .ok node ↔
      condition.isListLike = true ∧ node = .conditional condition ifTrue ifFalse := by
  -- The condition is the only thing that is checked.
  rw [branch]
  split
  · rename_i listLike
    rw [Except.ok.injEq, eq_comm, and_iff_right listLike]
  · rename_i bad
    exact iff_of_false nofun fun ⟨listLike, _⟩ => bad listLike

/-- The value of an operator is read by the reader of the operator, or not at all. -/
theorem ofParts?_operation (operator : Operator) (attributes : List Json)
    (parts : List (Option Predicate)) :
    ofParts? (operation operator.name attributes) (some parts) =
      operator.reader (operation operator.name attributes) parts := by
  -- There is nothing to be read beside the operator.
  have alone : beside? (operation operator.name attributes) = none := beside?_eq_none rfl rfl
  rw [ofParts?_of_operator (operationOf?_operation _ _), alone, Option.or_none, Option.bind_some]

/-- The value of well-formed operands under a connective is read when there are two of them and all
are list-like. -/
theorem ofJson?_toJson_logical_iff {connective : Connective} {operands : List Predicate}
    (each : ∀ operand ∈ operands, operand.WellFormed) {node : Predicate} :
    ofJson? (logical connective operands).toJson = some node ↔ 2 ≤ operands.length ∧
      (∀ operand ∈ operands, operand.isListLike = true) ∧ node = .logical connective operands := by
  -- If the operands may be joined, the whole is well-formed, and so it is read back.
  have readBack (enough : 2 ≤ operands.length)
      (listLike : ∀ operand ∈ operands, operand.isListLike = true) :
      ofJson? (logical connective operands).toJson = some (.logical connective operands) :=
    (WellFormed.logical enough listLike each).ofJson?_toJson
  constructor
  · intro read
    have parts : operands.map (ofJson? ∘ toJson) = operands.map some :=
      List.map_congr_left fun operand member => (each operand member).ofJson?_toJson
    have joined := read
    rw [toJson, ofJson?_operation, operandsToJson_eq_map, List.map_map, parts,
      show connective.name = (Operator.logical connective).name from rfl,
      ofParts?_operation, Operator.reader] at joined
    -- The reader of connectives has taken all of the parts, which are the operands.
    obtain ⟨_, taken, same, enough, listLike, _⟩ := logicalOf?_eq_some joined
    obtain rfl := List.map_injective_iff.mpr (Option.some_injective _) same
    rw [readBack enough listLike, Option.some.injEq] at read
    exact ⟨enough, listLike, read.symm⟩
  · rintro ⟨enough, listLike, rfl⟩
    exact readBack enough listLike

/-- The value of a decision on a well-formed condition is read when the condition is list-like. -/
theorem ofJson?_toJson_conditional_iff {condition : Predicate} (formed : condition.WellFormed)
    {ifTrue ifFalse : Obligations} {node : Predicate} :
    ofJson? (conditional condition ifTrue ifFalse).toJson = some node ↔
      condition.isListLike = true ∧ node = .conditional condition ifTrue ifFalse := by
  -- Once the condition is list-like, the decision is well-formed, and such values are read back.
  have readBack (listLike : condition.isListLike = true) :
      ofJson? (conditional condition ifTrue ifFalse).toJson =
        some (.conditional condition ifTrue ifFalse) :=
    (WellFormed.conditional listLike formed).ofJson?_toJson
  constructor
  · intro read
    have decided := read
    rw [toJson, ofJson?_operation, List.map_cons, formed.ofJson?_toJson,
      show "if" = Operator.decision.name from rfl, ofParts?_operation,
      Operator.reader] at decided
    -- The condition is the first of the parts.
    obtain ⟨first, _, _, _, same, listLike, _⟩ := conditionalOf?_eq_some decided
    obtain rfl := Option.some.inj (List.cons.inj same).1
    rw [readBack listLike, Option.some.injEq] at read
    exact ⟨listLike, read.symm⟩
  · rintro ⟨listLike, rfl⟩
    exact readBack listLike

/-- The predicates that can be built one from the other, with a check where there is one: facts and
references to the request, obligations, comparisons of what was built, and whatever the two checks
let through. -/
inductive Built : Predicate → Prop where
  /-- A fact of a type and a value. -/
  | single (type value : String) : Built (.fact ⟨type, value⟩)
  /-- A reference to a field of the request. -/
  | request (field : String) : Built (.fact (.ofRequest field))
  /-- Any obligations. -/
  | obligations (obligations : Obligations) : Built (.obligations obligations)
  /-- A comparison, which checks nothing. -/
  | compare (comparison : Comparison) {left right : Predicate} (first : Built left)
      (second : Built right) : Built (.comparable comparison left right)
  /-- Operands that a connective takes. -/
  | connect {connective : Connective} {operands : List Predicate} {node : Predicate}
      (each : ∀ operand ∈ operands, Built operand)
      (taken : connect connective operands = .ok node) : Built node
  /-- A condition that a decision takes. -/
  | branch {condition node : Predicate} {ifTrue ifFalse : Obligations} (inner : Built condition)
      (taken : branch condition ifTrue ifFalse = .ok node) : Built node

/-- The predicates that can be built are the well-formed ones. -/
theorem built_iff_wellFormed {node : Predicate} : node.Built ↔ node.WellFormed := by
  constructor
  · -- By induction on the construction: the checks ask for what well-formed nodes have.
    intro built
    induction built with
    | single type value => exact .fact _
    | request field => exact .fact _
    | obligations list => exact .obligations list
    | compare comparison _ _ left right => exact .comparable left right
    | connect _ taken each =>
      obtain ⟨enough, listLike, rfl⟩ := connect_eq_ok_iff.mp taken
      exact .logical enough listLike each
    | branch _ taken inner =>
      obtain ⟨listLike, rfl⟩ := branch_eq_ok_iff.mp taken
      exact .conditional listLike inner
  · -- By induction on the shape: every well-formed node passes the check of its own shape.
    intro formed
    induction formed with
    | fact leaf => exact .single leaf.type leaf.value
    | obligations list => exact .obligations list
    | comparable _ _ left right => exact .compare _ left right
    | logical enough listLike _ each =>
      exact .connect each (connect_eq_ok_iff.mpr ⟨enough, listLike, rfl⟩)
    | conditional listLike _ inner =>
      exact .branch inner (branch_eq_ok_iff.mpr ⟨listLike, rfl⟩)

/-- Well-formed operands go under a connective exactly when the value of the connective over them is
read, and a well-formed condition is decided on exactly when the value of the decision is read; what
is read is what was put together. The predicates that can be built are those that are read back from
their values. The combination of list-like ones among them is empty when there are none, and is read
back else. -/
theorem built_iff_reads_back :
    (∀ (connective : Connective) (operands : List Predicate),
      (∀ operand ∈ operands, operand.WellFormed) → ∀ node,
        (connect connective operands = .ok node ↔
          ofJson? (logical connective operands).toJson.sorted = some node) ∧
        (connect connective operands = .ok node → node = .logical connective operands)) ∧
    (∀ (condition : Predicate) (ifTrue ifFalse : Obligations), condition.WellFormed → ∀ node,
      (branch condition ifTrue ifFalse = .ok node ↔
        ofJson? (conditional condition ifTrue ifFalse).toJson.sorted = some node) ∧
      (branch condition ifTrue ifFalse = .ok node →
        node = .conditional condition ifTrue ifFalse)) ∧
    (∀ node : Predicate, node.Built ↔ ofJson? node.toJson.sorted = some node) ∧
    ∀ (connective : Connective) (terms : List Predicate),
      (∀ term ∈ terms, term.Built ∧ term.isListLike = true) →
        (combine connective terms = .empty ↔ terms = []) ∧
        (terms ≠ [] →
          ofJson? (combine connective terms).toJson.sorted = some (combine connective terms)) := by
  -- The value is sorted before it is read, which makes no difference to the reader.
  simp only [ofJson?_sorted_toJson]
  refine ⟨fun connective operands each node => ⟨?_, fun taken => ?_⟩,
    fun condition ifTrue ifFalse formed node => ⟨?_, fun taken => ?_⟩, fun node => ⟨?_, ?_⟩,
    fun connective terms each => ?_⟩
  · -- The check and the reader ask for the same.
    rw [connect_eq_ok_iff, ofJson?_toJson_logical_iff each]
  · exact (connect_eq_ok_iff.mp taken).2.2
  · rw [branch_eq_ok_iff, ofJson?_toJson_conditional_iff formed]
  · exact (branch_eq_ok_iff.mp taken).2
  · -- What can be built is well-formed, and what is read is.
    intro built
    exact (built_iff_wellFormed.mp built).ofJson?_toJson
  · intro read
    exact built_iff_wellFormed.mpr (wellFormed_of_ofJson? _ read)
  · -- List-like nodes that were built are terms, and so is their combination.
    have terms : ∀ term ∈ terms, term.IsTerm := fun term member =>
      ⟨(each term member).2, built_iff_wellFormed.mp (each term member).1⟩
    exact ⟨combine_eq_empty_iff connective terms,
      fun present => (isTerm_combine connective present terms).formed.ofJson?_toJson⟩

/-- Obligations and a fact go under no connective and are read from no value of one. A choice
between obligations and a decision on them can be built, and it is read back. -/
theorem built_reads_back_choice :
    let leaf : Predicate := .fact ⟨"time", "1"⟩
    let none : Predicate := .obligations []
    let decision : Predicate := .conditional none [⟨"obligation", "log"⟩] []
    connect .or [none, leaf] = .error (.operand .or "single") ∧
      ofJson? (logical .or [none, leaf]).toJson.sorted = Option.none ∧
      connect .or [none, decision] = .ok (.logical .or [none, decision]) ∧
      ofJson? (combine .or [none, decision]).toJson.sorted =
        some (.logical .or [none, decision]) := by
  intro leaf none decision
  -- The general result is used at each of the two pairs of operands.
  obtain ⟨connected, _, _, combined⟩ := built_iff_reads_back
  have obligations : none.WellFormed := .obligations []
  have built : none.Built := .obligations []
  have refused : connect .or [none, leaf] = .error (.operand .or "single") := rfl
  have taken : connect .or [none, decision] = .ok (.logical .or [none, decision]) := rfl
  have operands : ∀ operand ∈ [none, leaf], operand.WellFormed := by
    simp [obligations, leaf, WellFormed.fact]
  have terms : ∀ term ∈ [none, decision], term.Built ∧ term.isListLike = true := by
    simp only [List.forall_mem_cons]
    exact ⟨⟨built, rfl⟩, ⟨.branch built rfl, rfl⟩, nofun⟩
  refine ⟨refused, ?_, taken, (combined .or _ terms).2 (List.cons_ne_nil _ _)⟩
  -- A node that was read could be built.
  rw [Option.eq_none_iff_forall_ne_some]
  intro node read
  have built := ((connected .or _ operands node).1).mpr read
  rw [refused] at built
  cases built

end Warrant.Predicate
