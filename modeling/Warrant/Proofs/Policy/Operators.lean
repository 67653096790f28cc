import Mathlib.Logic.Relation
import Warrant.Proofs.Outcome
import Warrant.Proofs.Policy.WellFormed

/-! What is read from an object that names an operator: a node of the operator over everything that
its attributes stand for, or else what its other members make. One malformed attribute spoils the
node, and every node above it, as long as there is nothing else to read. -/

namespace Warrant

/-- The operators that an object can name. -/
inductive Operator where
  | decision
  | logical (connective : Connective)
  | comparable (comparison : Comparison)

namespace Operator

open Predicate (listLike? ofJson?)

/-- The name written into policies. -/
def name : Operator → String
  | .decision => "if"
  | .logical connective => connective.name
  | .comparable comparison => comparison.name

/-- What the attributes of an operator stand for, each in its role: operands and conditions are
list-like, sides of a comparison are anything, and what follows on a condition is obligations. -/
def children : Operator → List Json → List (Option Predicate)
  | .decision, [] => []
  | .decision, condition :: branches =>
    listLike? (ofJson? condition) ::
      branches.map fun branch => (Obligations.ofJson? branch).map .obligations
  | .logical _, operands => operands.map fun operand => listLike? (ofJson? operand)
  | .comparable _, sides => sides.map ofJson?

/-- The nodes of an operator over its children. -/
inductive Joins : Operator → List Predicate → Predicate → Prop where
  /-- A decision that leaves its last obligations out has none there. -/
  | shortDecision (condition : Predicate) (ifTrue : Obligations) :
    Joins .decision [condition, .obligations ifTrue] (.conditional condition ifTrue [])
  /-- A decision between obligations. -/
  | decision (condition : Predicate) (ifTrue ifFalse : Obligations) :
    Joins .decision [condition, .obligations ifTrue, .obligations ifFalse]
      (.conditional condition ifTrue ifFalse)
  /-- At least two operands under a connective. -/
  | logical (connective : Connective) {operands : List Predicate} (enough : 2 ≤ operands.length) :
    Joins (.logical connective) operands (.logical connective operands)
  /-- Two sides of a comparison. -/
  | comparable (comparison : Comparison) (left right : Predicate) :
    Joins (.comparable comparison) [left, right] (.comparable comparison left right)

/-- A node of an operator is read from an object when it joins what all attributes of the object
stand for, in their order. -/
def Reads (operator : Operator) (json : Json) (node : Predicate) : Prop :=
  ∃ items parts, json.member? "attribute_list" = some (.arr items) ∧
    operator.children items = parts.map some ∧ operator.Joins parts node

/-- The reader that takes an operator. -/
def reader : Operator → Json → List (Option Predicate) → Option Predicate
  | .decision => Predicate.conditionalOf?
  | .logical _ => Predicate.logicalOf?
  | .comparable _ => Predicate.comparableOf?

end Operator

namespace Predicate

/-- What is read from an object when it is taken for no operator: obligations, or else a fact. -/
def beside? (json : Json) : Option Predicate :=
  ((Obligations.ofJson? json).map .obligations).or ((Fact.ofJson? json).map .fact)

/-- Nothing is read beside an operator without the members of obligations and of facts. -/
theorem beside?_eq_none {json : Json} (obligations : json.member? "obligations" = none)
    (type : json.member? "type" = none) : beside? json = none := by
  simp [beside?, Obligations.ofJson?, Fact.ofJson?, obligations, type]

/-- A value of obligations is read in any place, whatever it is read as. -/
theorem ofJson?_ne_none_of_obligations {json : Json} {list : Obligations}
    (read : Obligations.ofJson? json = some list) : ofJson? json ≠ none := by
  -- Only an object holds obligations, and where no reader before takes it, theirs does.
  cases json with
  | obj members => simp [ofJson?, ofParts?, read]
  | _ => simp [Obligations.ofJson?, Json.member?] at read

end Predicate

namespace Operator

open Predicate (listLike? ofJson? operationOf? beside?)

/-- Every attribute stands for one child. -/
theorem length_children (operator : Operator) (items : List Json) :
    (operator.children items).length = items.length := by
  -- A decision reads its first attribute apart, and the other operators read all of them alike.
  cases operator with
  | decision => cases items <;> simp [children]
  | logical _ => exact List.length_map _
  | comparable _ => exact List.length_map _

/-- An attribute that is no predicate is none in any role. -/
theorem none_mem_children (operator : Operator) {item : Json} {items : List Json}
    (member : item ∈ items) (malformed : ofJson? item = none) :
    none ∈ operator.children items := by
  -- Obligations are predicates as well.
  have branch : Obligations.ofJson? item = none :=
    Option.eq_none_iff_forall_ne_some.mpr fun _ read =>
      Predicate.ofJson?_ne_none_of_obligations read malformed
  have operand : listLike? (ofJson? item) = none := by rw [malformed]; rfl
  cases operator with
  | decision =>
    cases items with
    | nil => cases member
    | cons condition branches =>
      rcases List.mem_cons.mp member with rfl | later
      · exact List.mem_cons.mpr (.inl operand.symm)
      · exact List.mem_cons_of_mem _ (List.mem_map.mpr ⟨item, later, by rw [branch]; rfl⟩)
  | logical _ => exact List.mem_map.mpr ⟨item, member, operand⟩
  | comparable _ => exact List.mem_map.mpr ⟨item, member, malformed⟩

/-- Nothing joins the children of an operator of which one is malformed. -/
theorem not_reads_of_malformed {operator : Operator} {json : Json} {items : List Json}
    (listed : json.member? "attribute_list" = some (.arr items))
    (malformed : none ∈ operator.children items) (node : Predicate) :
    ¬ operator.Reads json node := by
  rintro ⟨others, parts, again, taken, _⟩
  -- There is one list of attributes, and none of its children is missing.
  cases listed.symm.trans again
  rw [taken] at malformed
  simp at malformed

/-- A decision is read from two or three attributes. -/
theorem conditionalOf?_eq_some_iff {json : Json} {items : List Json} {node : Predicate}
    (named : operationOf? json = some "if")
    (listed : json.member? "attribute_list" = some (.arr items)) :
    Predicate.conditionalOf? json (items.map ofJson?) = some node ↔
      ∃ parts, decision.children items = parts.map some ∧ decision.Joins parts node := by
  -- The reader looks at the name and at the list once more, and both are known here.
  simp only [Predicate.conditionalOf?, named, listed, ne_eq, not_true_eq_false, if_false,
    Json.items?, Option.bind_eq_bind, Option.bind_some, Option.pure_def]
  constructor
  · intro read
    split at read
    · -- The last obligations are left out.
      rename_i given _ first second attributes
      simp only [Option.bind_eq_some_iff, Option.some.injEq] at read
      obtain ⟨condition, like, ifTrue, held, rfl⟩ := read
      obtain ⟨rfl, _⟩ := List.cons.inj attributes
      refine ⟨[condition, .obligations ifTrue], ?_, .shortDecision condition ifTrue⟩
      simp [children, like, held]
    · -- With a third attribute there are obligations for both outcomes.
      rename_i given _ _ first second third attributes
      simp only [Option.bind_eq_some_iff, Option.some.injEq] at read
      obtain ⟨condition, like, ifTrue, held, ifFalse, other, rfl⟩ := read
      obtain ⟨rfl, _⟩ := List.cons.inj attributes
      refine ⟨[condition, .obligations ifTrue, .obligations ifFalse], ?_, .decision condition _ _⟩
      simp [children, like, held, other]
    · -- One attribute, or more than three, make no decision.
      cases read
  · -- In the other direction the number of children settles which case of the reader applies.
    rintro ⟨parts, taken, joined⟩
    have count := congrArg List.length taken
    rw [length_children, List.length_map] at count
    cases joined with
    | shortDecision condition ifTrue =>
      obtain ⟨first, second, rfl⟩ := List.length_eq_two.mp count
      simp only [children, List.map_cons, List.map_nil, List.cons.injEq, Option.map_eq_some_iff,
        Predicate.obligations.injEq, exists_eq_right, and_true] at taken
      simp [taken]
    | decision condition ifTrue ifFalse =>
      obtain ⟨first, second, third, rfl⟩ := List.length_eq_three.mp count
      simp only [children, List.map_cons, List.map_nil, List.cons.injEq, Option.map_eq_some_iff,
        Predicate.obligations.injEq, exists_eq_right, and_true] at taken
      simp [taken]

/-- The reader of an operator reads its nodes, and nothing else. -/
theorem reader_eq_some_iff (operator : Operator) {json : Json} {items : List Json}
    {node : Predicate} (named : operationOf? json = some operator.name)
    (listed : json.member? "attribute_list" = some (.arr items)) :
    operator.reader json (items.map ofJson?) = some node ↔
      ∃ parts, operator.children items = parts.map some ∧ operator.Joins parts node := by
  -- Each kind of operator has a reader of its own, which counts the attributes it was given.
  cases operator with
  | decision => exact conditionalOf?_eq_some_iff named listed
  | logical connective =>
    have found : Connective.ofName? (logical connective).name = some connective :=
      Connective.ofName?_name connective
    simp only [reader, Predicate.logicalOf?, named, children, Option.bind_eq_bind, found,
      Option.bind_some, List.length_map]
    constructor
    · -- Two operands at least were given, and each of them was read.
      intro read
      split at read
      · cases read
      · obtain ⟨operands, taken, same⟩ := Option.bind_eq_some_iff.mp read
        cases same
        rw [mapM_eq_some_iff, List.map_map] at taken
        refine ⟨operands, taken, .logical connective ?_⟩
        have lengths := congrArg List.length taken
        simp only [List.length_map] at lengths
        omega
    · -- The operands that were read are as many as the attributes, so the count is passed.
      rintro ⟨operands, taken, ⟨_, enough⟩⟩
      have lengths := congrArg List.length taken
      simp only [List.length_map] at lengths
      rw [if_neg (by omega), Option.bind_eq_some_iff]
      refine ⟨operands, ?_, rfl⟩
      rw [mapM_eq_some_iff, List.map_map]
      exact taken
  | comparable comparison =>
    have found : Comparison.ofName? (comparable comparison).name = some comparison :=
      Comparison.ofName?_name comparison
    simp only [reader, Predicate.comparableOf?, named, children, Option.bind_eq_bind, found,
      Option.bind_some]
    constructor
    · -- Exactly two attributes were given, and both were read.
      intro read
      split at read
      · rename_i left right pair
        simp only [Option.bind_eq_some_iff] at read
        obtain ⟨first, rfl, second, rfl, same⟩ := read
        cases same
        exact ⟨[first, second], pair, .comparable comparison first second⟩
      · cases read
    · rintro ⟨parts, taken, joined⟩
      cases joined with
      | comparable _ left right => rw [taken]; rfl

end Operator

namespace Predicate

/-- The attributes of an object are the items of the member with their key, each read by itself. -/
theorem attributesOf?_eq_some_iff {members : List (String × Json)}
    {parts : List (Option Predicate)} :
    attributesOf? members = some parts ↔ ∃ items,
      (Json.obj members).member? "attribute_list" = some (.arr items) ∧
        parts = items.map ofJson? := by
  -- The attributes are the items of an array, and nothing but an array has any.
  rw [attributesOf?_eq_lookup, Option.bind_eq_some_iff]
  constructor
  · rintro ⟨value, found, read⟩
    cases value with
    | arr items =>
      rw [listOf?, Option.some.injEq, itemsOf_eq_map] at read
      exact ⟨items, found, read.symm⟩
    | _ => simp [listOf?] at read
  · rintro ⟨items, found, rfl⟩
    exact ⟨.arr items, found, by rw [listOf?, itemsOf_eq_map]⟩

/-- Of the three readers of operators only that of the operator named can succeed. -/
theorem ofParts?_of_operator {json : Json} {operator : Operator}
    (named : operationOf? json = some operator.name) (parts : Option (List (Option Predicate))) :
    ofParts? json parts = (parts.bind (operator.reader json)).or (beside? json) := by
  -- Without parts no reader of operators is asked, and otherwise the other two give up at the name.
  rw [ofParts?, beside?]
  cases parts with
  | none => rfl
  | some parts =>
    cases operator with
    | decision =>
      have connective : logicalOf? json parts = none := by
        simp [logicalOf?, named, Operator.name, Connective.ofName?]
      have comparison : comparableOf? json parts = none := by
        simp [comparableOf?, named, Operator.name, Comparison.ofName?]
      simp [connective, comparison, Operator.reader]
    | logical connective =>
      have decision : conditionalOf? json parts = none := by
        simp [conditionalOf?, named, Operator.name]
      have comparison : comparableOf? json parts = none := by
        cases connective <;>
          simp [comparableOf?, named, Operator.name, Connective.name, Comparison.ofName?]
      simp [decision, comparison, Operator.reader]
    | comparable comparison =>
      have decision : conditionalOf? json parts = none := by
        simp [conditionalOf?, named, Operator.name]
      have connective : logicalOf? json parts = none := by
        simp [logicalOf?, named, Operator.name]
      simp [decision, connective, Operator.reader]

/-- An object that names an operator is read as a node of that operator, or else as what is read
beside it. -/
theorem ofJson?_eq_some_iff {members : List (String × Json)} {operator : Operator}
    {predicate : Predicate} (named : operationOf? (.obj members) = some operator.name) :
    ofJson? (.obj members) = some predicate ↔ operator.Reads (.obj members) predicate ∨
      (∀ node, ¬ operator.Reads (.obj members) node) ∧ beside? (.obj members) = some predicate := by
  -- A reader of operators is given the parts only, which are the readings of the attributes.
  have node (node : Predicate) :
      (attributesOf? members).bind (operator.reader (.obj members)) = some node ↔
        operator.Reads (.obj members) node := by
    simp only [Option.bind_eq_some_iff, attributesOf?_eq_some_iff, Operator.Reads]
    constructor
    · rintro ⟨_, ⟨items, listed, rfl⟩, read⟩
      obtain ⟨parts, taken, joined⟩ := (operator.reader_eq_some_iff named listed).mp read
      exact ⟨items, parts, listed, taken, joined⟩
    · rintro ⟨items, parts, listed, taken, joined⟩
      exact ⟨_, ⟨items, listed, rfl⟩,
        (operator.reader_eq_some_iff named listed).mpr ⟨parts, taken, joined⟩⟩
  -- What is read is the first of two outcomes, or the second when there is no first.
  rw [ofJson?, ofParts?_of_operator named, Option.or_eq_some_iff, Option.eq_none_iff_forall_ne_some]
  simp only [ne_eq, node]

/-- Only an object that names an operator is read by a reader of operators. -/
theorem exists_named_of_reader {operator : Operator} {json : Json}
    {parts : List (Option Predicate)} {node : Predicate}
    (read : operator.reader json parts = some node) :
    ∃ named : Operator, operationOf? json = some named.name := by
  -- Each reader asks for the name of an operator before it looks at anything else.
  cases operator with
  | decision =>
    refine ⟨.decision, ?_⟩
    by_contra different
    simp only [Operator.name] at different
    simp [Operator.reader, conditionalOf?, different] at read
  | logical _ =>
    obtain ⟨name, named, read⟩ := Option.bind_eq_some_iff.mp read
    obtain ⟨connective, known, _⟩ := Option.bind_eq_some_iff.mp read
    exact ⟨.logical connective, named.trans (congrArg some (Connective.eq_name_of_ofName? known))⟩
  | comparable _ =>
    obtain ⟨name, named, read⟩ := Option.bind_eq_some_iff.mp read
    obtain ⟨comparison, known, _⟩ := Option.bind_eq_some_iff.mp read
    exact ⟨.comparable comparison,
      named.trans (congrArg some (Comparison.eq_name_of_ofName? known))⟩

/-- An object that names no operator is read as what is read beside one. -/
theorem ofJson?_eq_beside?_of_unnamed {members : List (String × Json)}
    (unnamed : ¬ ∃ operator : Operator, operationOf? (.obj members) = some operator.name) :
    ofJson? (.obj members) = beside? (.obj members) := by
  -- No reader of operators takes the object, so that it comes to the last two readers.
  have unread (operator : Operator) (parts : Option (List (Option Predicate))) :
      parts.bind (operator.reader (.obj members)) = none := by
    rw [Option.eq_none_iff_forall_ne_some]
    intro node read
    obtain ⟨_, _, read⟩ := Option.bind_eq_some_iff.mp read
    exact unnamed (exists_named_of_reader read)
  have decision := unread .decision (attributesOf? members)
  have connective := unread (.logical .and) (attributesOf? members)
  have comparison := unread (.comparable .eq) (attributesOf? members)
  simp only [Operator.reader] at decision connective comparison
  rw [ofJson?, ofParts?, decision, connective, comparison]
  rfl

/-- What is read from an object is a node of the operator that the object names, or it is read
beside an operator. -/
theorem reads_or_beside_of_ofJson? {members : List (String × Json)} {predicate : Predicate}
    (read : ofJson? (.obj members) = some predicate) :
    (∃ operator : Operator, operationOf? (.obj members) = some operator.name ∧
      operator.Reads (.obj members) predicate) ∨ beside? (.obj members) = some predicate := by
  -- A name that is no operator's is a name that no reader of operators takes.
  by_cases named : ∃ operator : Operator, operationOf? (.obj members) = some operator.name
  · obtain ⟨operator, named⟩ := named
    exact ((ofJson?_eq_some_iff named).mp read).imp (fun node => ⟨operator, named, node⟩) And.right
  · rw [ofJson?_eq_beside?_of_unnamed named] at read
    exact .inr read

/-- An object with a malformed attribute is read as what is read beside its operator. -/
theorem ofJson?_eq_beside?_of_malformed {members : List (String × Json)} {operator : Operator}
    {items : List Json} (named : operationOf? (.obj members) = some operator.name)
    (listed : (Json.obj members).member? "attribute_list" = some (.arr items))
    (malformed : none ∈ operator.children items) :
    ofJson? (.obj members) = beside? (.obj members) := by
  -- With a malformed child there is no node, and the second reading is all that is left.
  have unread := Operator.not_reads_of_malformed listed malformed
  refine Option.ext fun predicate => ?_
  rw [ofJson?_eq_some_iff named, and_iff_right unread, or_iff_right (unread predicate)]

/-- A value is an attribute of another, which names an operator and has nothing to be read beside
it. -/
def AttributeOf (part whole : Json) : Prop :=
  beside? whole = none ∧ ∃ operator items, operationOf? whole = some (Operator.name operator) ∧
    whole.member? "attribute_list" = some (.arr items) ∧ part ∈ items

/-- What spoils an attribute spoils the whole. -/
theorem AttributeOf.ofJson?_eq_none {part whole : Json} (direct : AttributeOf part whole)
    (malformed : ofJson? part = none) : ofJson? whole = none := by
  -- The malformed attribute is a missing child, so that only what stands beside is left to read.
  obtain ⟨alone, operator, items, named, listed, member⟩ := direct
  cases whole with
  | obj members =>
    rw [ofJson?_eq_beside?_of_malformed named listed (operator.none_mem_children member malformed)]
    exact alone
  | _ => cases listed

/-- What spoils a value spoils every whole that it is a part of, at any depth. -/
theorem ofJson?_eq_none_of_within {part whole : Json}
    (within : Relation.ReflTransGen AttributeOf part whole) (malformed : ofJson? part = none) :
    ofJson? whole = none := by
  -- By induction on the way up, one attribute after the other.
  induction within with
  | refl => exact malformed
  | tail _ direct below => exact direct.ofJson?_eq_none below

/-- An object that names an operator is read as a node of that operator over everything that its
attributes stand for, in their order, and otherwise as the obligations or the fact that its other
members make. With a malformed attribute it is read as what these make; and if they make nothing, it
is not read, and nor is any whole of whose attributes it is one, at any depth. -/
theorem ofJson?_of_operator {members : List (String × Json)} {operator : Operator}
    (named : operationOf? (.obj members) = some operator.name) :
    (∀ predicate, ofJson? (.obj members) = some predicate ↔
      operator.Reads (.obj members) predicate ∨
        (∀ node, ¬ operator.Reads (.obj members) node) ∧
          beside? (.obj members) = some predicate) ∧
    ∀ items, (Json.obj members).member? "attribute_list" = some (.arr items) →
      none ∈ operator.children items →
        ofJson? (.obj members) = beside? (.obj members) ∧
        (beside? (.obj members) = none →
          ∀ whole, Relation.ReflTransGen AttributeOf (.obj members) whole →
            ofJson? whole = none) := by
  -- Both parts are proved above, and what an attribute spoils is spoilt at every level around it.
  refine ⟨fun predicate => ofJson?_eq_some_iff named, fun items listed malformed => ?_⟩
  have read := ofJson?_eq_beside?_of_malformed named listed malformed
  exact ⟨read, fun alone whole within => ofJson?_eq_none_of_within within (read.trans alone)⟩

/-- The members of a conjunction of obligations and of an object that is no predicate, with others
between them. -/
def spoiltConjunction (others : List (String × Json)) : List (String × Json) :=
  ("attribute_list", .arr [.obj [("obligations", .arr [])], .obj []]) ::
    (others ++ [("operation", .str "and")])

/-- One of the operands is malformed. -/
theorem none_mem_children_spoiltConjunction :
    none ∈ (Operator.logical .and).children [.obj [("obligations", .arr [])], .obj []] := by
  decide +kernel

/-- A conjunction with a malformed operand is not read, nor is a disjunction around it. -/
theorem spoiltConjunction_not_read :
    ofJson? (.obj (spoiltConjunction [])) = none ∧
      ofJson? (operation "or" [.obj (spoiltConjunction []), .obj [("obligations", .arr [])]]) =
        none := by
  -- The operand is malformed and nothing stands beside it, at either of the two levels.
  have named : operationOf? (.obj (spoiltConjunction [])) =
      some (Operator.logical .and).name := rfl
  have alone : beside? (.obj (spoiltConjunction [])) = none := beside?_eq_none rfl rfl
  have direct : AttributeOf (.obj (spoiltConjunction []))
      (operation "or" [.obj (spoiltConjunction []), .obj [("obligations", .arr [])]]) :=
    ⟨beside?_eq_none rfl rfl, .logical .or, _, rfl, rfl, List.mem_cons_self⟩
  have spoils := ((ofJson?_of_operator named).2 _ rfl none_mem_children_spoiltConjunction).2 alone
  exact ⟨spoils _ .refl, spoils _ (.single direct)⟩

/-- With obligations beside its operator, a conjunction with a malformed operand is read as them. -/
theorem spoiltConjunction_read_as_obligations :
    operationOf? (.obj (spoiltConjunction [("obligations", .arr [])])) =
        some (Operator.logical .and).name ∧
      (∀ node, ¬ (Operator.logical .and).Reads
        (.obj (spoiltConjunction [("obligations", .arr [])])) node) ∧
      ofJson? (.obj (spoiltConjunction [("obligations", .arr [])])) = some (.obligations []) := by
  -- The obligations stand beside the operator, and they are what is left to read.
  have named : operationOf? (.obj (spoiltConjunction [("obligations", .arr [])])) =
      some (Operator.logical .and).name := rfl
  refine ⟨named, ?_, ?_⟩
  · exact Operator.not_reads_of_malformed rfl none_mem_children_spoiltConjunction
  · rw [ofJson?_eq_beside?_of_malformed named rfl none_mem_children_spoiltConjunction]
    rfl

end Predicate

end Warrant
