import Warrant.Proofs.Policy.Keys
import Warrant.Proofs.Policy.MemberOrder

/-! Readers accept exactly the well-formed predicates, and each of those from its own JSON value. -/

namespace Warrant

/-- A fact is read back from its JSON value. -/
@[simp] theorem Fact.ofJson?_toJson (fact : Fact) : Fact.ofJson? fact.toJson = some fact := by
  -- Both members are strings and stand under their own names.
  simp [Fact.ofJson?, Fact.toJson, Json.member?, Json.text?, lookup_cons_eq_ite]

/-- Obligations are read back from their JSON value. -/
@[simp] theorem Obligations.ofJson?_toJson (obligations : Obligations) :
    Obligations.ofJson? obligations.toJson = some obligations := by
  -- The items are read one after the other, each of them a fact.
  have items : (obligations.map Fact.toJson).mapM Fact.ofJson? = some obligations := by
    induction obligations with
    | nil => rfl
    | cons fact rest ih => simp [ih]
  simpa [Obligations.ofJson?, Obligations.toJson, Json.member?, Json.items?, lookup_cons_eq_ite]
    using items

namespace Predicate

/-- The predicates that a policy may hold in a member that is not empty: nothing inside is empty, a
connective joins at least two list-like operands, and the condition of a decision is list-like. -/
inductive WellFormed : Predicate → Prop where
  /-- Any fact. -/
  | fact (fact : Fact) : WellFormed (.fact fact)
  /-- Any obligations, also none. -/
  | obligations (obligations : Obligations) : WellFormed (.obligations obligations)
  /-- Any two well-formed sides. -/
  | comparable {comparison : Comparison} {left right : Predicate} (first : WellFormed left)
      (second : WellFormed right) : WellFormed (.comparable comparison left right)
  /-- At least two operands, all of them list-like and well-formed. -/
  | logical {connective : Connective} {operands : List Predicate} (enough : 2 ≤ operands.length)
      (listLike : ∀ operand ∈ operands, operand.isListLike = true)
      (each : ∀ operand ∈ operands, WellFormed operand) : WellFormed (.logical connective operands)
  /-- A list-like and well-formed condition, and any obligations. -/
  | conditional {condition : Predicate} {ifTrue ifFalse : Obligations}
      (listLike : condition.isListLike = true) (inner : WellFormed condition) :
      WellFormed (.conditional condition ifTrue ifFalse)

/-- The values of operands are their values one by one. -/
theorem operandsToJson_eq_map (operands : List Predicate) :
    operandsToJson operands = operands.map toJson := by
  induction operands with
  | nil => simp [operandsToJson]
  | cons operand rest ih => simp [operandsToJson, ih]

/-- Items are read by themselves. -/
theorem itemsOf_eq_map (items : List Json) : itemsOf items = items.map ofJson? := by
  induction items with
  | nil => simp [itemsOf]
  | cons item rest ih => simp [itemsOf, ih]

/-- An operation is read from its attributes. -/
theorem ofJson?_operation (name : String) (attributes : List Json) :
    ofJson? (operation name attributes) =
      ofParts? (operation name attributes) (some (attributes.map ofJson?)) := by
  -- The list of attributes is the second member.
  simp [operation, ofJson?, attributesOf?, listOf?, itemsOf_eq_map]

/-- The name of an operation is found. -/
@[simp] theorem operationOf?_operation (name : String) (attributes : List Json) :
    operationOf? (operation name attributes) = some name := by
  simp [operationOf?, operation, Json.member?, Json.text?]

/-- The attributes of an operation are found. -/
@[simp] theorem member?_operation (name : String) (attributes : List Json) :
    (operation name attributes).member? "attribute_list" = some (.arr attributes) := by
  simp [operation, Json.member?, lookup_cons_eq_ite]

/-- Parts that are all list-like are all taken. -/
theorem mapM_listLike? {operands : List Predicate}
    (listLike : ∀ operand ∈ operands, operand.isListLike = true) :
    (operands.map some).mapM listLike? = some operands := by
  -- Each part passes the filter and keeps its place.
  induction operands with
  | nil => rfl
  | cons operand rest ih =>
    have first := listLike operand (by simp)
    have others := ih fun other member => listLike other (by simp [member])
    simp [listLike?, Option.filter, first, others]

/-- A connective is no decision, and takes at least two list-like parts. -/
theorem ofParts?_logical (connective : Connective) {attributes : List Json}
    {operands : List Predicate} (enough : 2 ≤ operands.length)
    (listLike : ∀ operand ∈ operands, operand.isListLike = true) :
    ofParts? (operation connective.name attributes) (some (operands.map some)) =
      some (.logical connective operands) := by
  -- The reader of decisions gives up at the name, and the next one takes all parts.
  simp [ofParts?, conditionalOf?, logicalOf?, Connective.ofName?_name,
    mapM_listLike? listLike, Nat.not_lt.2 enough]

/-- A comparison is neither a decision nor a connective, and takes any two parts. -/
theorem ofParts?_comparable (comparison : Comparison) {attributes : List Json}
    (left right : Predicate) :
    ofParts? (operation comparison.name attributes) (some [some left, some right]) =
      some (.comparable comparison left right) := by
  -- The first two readers give up at the name.
  simp [ofParts?, conditionalOf?, logicalOf?, comparableOf?, Comparison.ofName?_name]

/-- A decision takes its first part for a condition and the other two attributes for obligations. -/
theorem ofParts?_conditional {condition : Predicate} (listLike : condition.isListLike = true)
    (ifTrue ifFalse : Obligations) {first : Json} {second third : Option Predicate} :
    ofParts? (operation "if" [first, ifTrue.toJson, ifFalse.toJson])
        (some [some condition, second, third]) = some (.conditional condition ifTrue ifFalse) := by
  -- The reader of decisions is the first, and its three attributes fit the longer form.
  have taken : listLike? (some condition) = some condition := by
    simp [listLike?, Option.filter, listLike]
  simp [ofParts?, conditionalOf?, taken, Json.items?]

/-- A well-formed predicate is read back from its JSON value. -/
theorem WellFormed.ofJson?_toJson {predicate : Predicate} (formed : predicate.WellFormed) :
    ofJson? predicate.toJson = some predicate := by
  -- By induction on the shape: its own reader takes the value, and no reader before it does.
  induction formed with
  -- A fact has no list of obligations that would be taken in its place.
  | fact leaf =>
    have noObligations : Obligations.ofJson? leaf.toJson = none := by
      simp [Obligations.ofJson?, Fact.toJson, Json.member?, lookup_cons_eq_ite]
    rw [toJson, Fact.toJson, ofJson?, ← Fact.toJson]
    simp [attributesOf?, ofParts?, noObligations]
  | obligations list =>
    rw [toJson, Obligations.toJson, ofJson?, ← Obligations.toJson]
    simp [attributesOf?, ofParts?]
  | @comparable comparison left right _ _ readLeft readRight =>
    rw [toJson, ofJson?_operation]
    simp only [List.map_cons, List.map_nil, readLeft, readRight, ofParts?_comparable]
  | @logical connective operands enough listLike _ read =>
    rw [toJson, ofJson?_operation, operandsToJson_eq_map, List.map_map]
    -- All operands are read back, so that the reader of connectives gets as many as were written.
    have parts : operands.map (ofJson? ∘ toJson) = operands.map some :=
      List.map_congr_left fun operand member => read operand member
    rw [parts, ofParts?_logical connective enough listLike]
  | @conditional condition ifTrue ifFalse listLike _ read =>
    rw [toJson, ofJson?_operation]
    simp only [List.map_cons, List.map_nil, read]
    exact ofParts?_conditional listLike ifTrue ifFalse

/-- A decision that was read has a list-like condition, which is the first of the parts. -/
theorem conditionalOf?_eq_some {json : Json} {parts : List (Option Predicate)}
    {predicate : Predicate} (read : conditionalOf? json parts = some predicate) :
    ∃ condition ifTrue ifFalse others, parts = some condition :: others ∧
      condition.isListLike = true ∧ predicate = .conditional condition ifTrue ifFalse := by
  -- Both forms of a decision filter their first part before anything is built.
  have kept {part : Option Predicate} {condition : Predicate}
      (taken : listLike? part = some condition) :
      part = some condition ∧ condition.isListLike = true := by
    simpa [listLike?, Option.filter_eq_some_iff] using taken
  simp only [conditionalOf?, Option.bind_eq_bind, Option.pure_def] at read
  split at read
  · -- Three forms of a list of parts are told apart: too short, without and with a last branch.
    simp at read
  · simp only [Option.bind_eq_some_iff] at read
    obtain ⟨value, _, items, _, read⟩ := read
    split at read
    · simp only [Option.bind_eq_some_iff, Option.some.injEq] at read
      obtain ⟨condition, taken, ifTrue, _, rfl⟩ := read
      obtain ⟨rfl, listLike⟩ := kept taken
      exact ⟨condition, ifTrue, [], _, rfl, listLike, rfl⟩
    · simp only [Option.bind_eq_some_iff, Option.some.injEq] at read
      obtain ⟨condition, taken, ifTrue, _, ifFalse, _, rfl⟩ := read
      obtain ⟨rfl, listLike⟩ := kept taken
      exact ⟨condition, ifTrue, ifFalse, _, rfl, listLike, rfl⟩
    · simp at read

/-- Parts that were all taken are list-like, and nothing but a part was taken. -/
theorem mapM_listLike?_eq_some {parts : List (Option Predicate)} {operands : List Predicate}
    (taken : parts.mapM listLike? = some operands) :
    parts = operands.map some ∧ ∀ operand ∈ operands, operand.isListLike = true := by
  -- The first part and the others are taken independently of each other.
  induction parts generalizing operands with
  | nil =>
    simp only [List.mapM_nil, Option.pure_def, Option.some.injEq] at taken
    subst taken
    simp
  | cons part rest ih =>
    simp only [List.mapM_cons, Option.bind_eq_bind, Option.pure_def, Option.bind_eq_some_iff,
      Option.some.injEq] at taken
    obtain ⟨operand, first, others, tail, rfl⟩ := taken
    obtain ⟨rfl, listLike⟩ := ih tail
    simp only [listLike?, Option.filter_eq_some_iff] at first
    obtain ⟨rfl, operandLike⟩ := first
    exact ⟨rfl, by simpa [operandLike] using listLike⟩

/-- A connective that was read joins all of its parts, which are list-like and at least two. -/
theorem logicalOf?_eq_some {json : Json} {parts : List (Option Predicate)}
    {predicate : Predicate} (read : logicalOf? json parts = some predicate) :
    ∃ connective operands, parts = operands.map some ∧ 2 ≤ operands.length ∧
      (∀ operand ∈ operands, operand.isListLike = true) ∧
      predicate = .logical connective operands := by
  -- The parts are counted before they are taken, and none of them is lost.
  simp only [logicalOf?, Option.bind_eq_bind, Option.pure_def, Option.bind_eq_some_iff] at read
  obtain ⟨name, _, connective, _, read⟩ := read
  split at read
  · simp at read
  · rename_i enough
    simp only [Option.bind_eq_some_iff, Option.some.injEq] at read
    obtain ⟨operands, taken, rfl⟩ := read
    obtain ⟨rfl, listLike⟩ := mapM_listLike?_eq_some taken
    rw [List.length_map] at enough
    exact ⟨connective, operands, rfl, by omega, listLike, rfl⟩

/-- A comparison that was read has exactly two parts. -/
theorem comparableOf?_eq_some {json : Json} {parts : List (Option Predicate)}
    {predicate : Predicate} (read : comparableOf? json parts = some predicate) :
    ∃ comparison left right, parts = [some left, some right] ∧
      predicate = .comparable comparison left right := by
  -- Only the pair of parts leads to a result, and both have to be there.
  simp only [comparableOf?, Option.bind_eq_bind, Option.pure_def, Option.bind_eq_some_iff] at read
  obtain ⟨name, _, comparison, _, read⟩ := read
  split at read
  · simp only [Option.bind_eq_some_iff, Option.some.injEq] at read
    obtain ⟨left, rfl, right, rfl, rfl⟩ := read
    exact ⟨comparison, left, right, rfl, rfl⟩
  · simp at read

/-- What is put together from well-formed parts is well-formed, whichever reader took them. -/
theorem wellFormed_of_ofParts? {json : Json} {parts : Option (List (Option Predicate))}
    {predicate : Predicate}
    (each : ∀ given, parts = some given → ∀ part, some part ∈ given → part.WellFormed)
    (read : ofParts? json parts = some predicate) : predicate.WellFormed := by
  -- One case for each reader; the last two build leaves, which are well-formed as they are.
  simp only [ofParts?, Option.or_eq_some_iff, Option.bind_eq_some_iff, Option.map_eq_some_iff]
    at read
  rcases read with decision | ⟨_, connective | ⟨_, comparison | ⟨_, list | ⟨_, leaf⟩⟩⟩⟩
  · obtain ⟨given, present, read⟩ := decision
    obtain ⟨condition, ifTrue, ifFalse, others, rfl, listLike, rfl⟩ := conditionalOf?_eq_some read
    exact .conditional listLike (each _ present condition (by simp))
  · obtain ⟨given, present, read⟩ := connective
    obtain ⟨connective, operands, rfl, enough, listLike, rfl⟩ := logicalOf?_eq_some read
    refine .logical enough listLike fun operand member => ?_
    exact each _ present operand (by simpa using member)
  · obtain ⟨given, present, read⟩ := comparison
    obtain ⟨comparison, left, right, rfl, rfl⟩ := comparableOf?_eq_some read
    exact .comparable (each _ present left (by simp)) (each _ present right (by simp))
  · obtain ⟨obligations, _, rfl⟩ := list
    exact .obligations obligations
  · obtain ⟨fact, _, rfl⟩ := leaf
    exact .fact fact

mutual

/-- A predicate that was read is well-formed. -/
theorem wellFormed_of_ofJson? : ∀ (json : Json) {predicate : Predicate},
    ofJson? json = some predicate → predicate.WellFormed
  -- By induction on the value: whatever was taken for a part was read from an item.
  | .obj members, _, read =>
    wellFormed_of_ofParts? (wellFormed_of_attributesOf? members) (by simpa [ofJson?] using read)
  | .null, _, read | .bool _, _, read | .int _, _, read | .float _, _, read
  | .str _, _, read | .arr _, _, read => by simp [ofJson?] at read

/-- The attributes that were read are well-formed. -/
theorem wellFormed_of_attributesOf? : ∀ (members : List (String × Json))
    (parts : List (Option Predicate)), attributesOf? members = some parts →
    ∀ part, some part ∈ parts → part.WellFormed
  -- The attributes are those of the first member with their key.
  | [], _, read => by simp [attributesOf?] at read
  | (key, value) :: rest, parts, read => by
    simp only [attributesOf?] at read
    split at read
    · exact wellFormed_of_listOf? value parts read
    · exact wellFormed_of_attributesOf? rest parts read

/-- The items that were read of an array are well-formed. -/
theorem wellFormed_of_listOf? : ∀ (json : Json) (parts : List (Option Predicate)),
    listOf? json = some parts → ∀ part, some part ∈ parts → part.WellFormed
  -- Only an array has items.
  | .arr items, parts, read => by
    simp only [listOf?, Option.some.injEq] at read
    exact read ▸ wellFormed_of_itemsOf items
  | .null, _, read | .bool _, _, read | .int _, _, read | .float _, _, read
  | .str _, _, read | .obj _, _, read => by simp [listOf?] at read

/-- The items that were read are well-formed. -/
theorem wellFormed_of_itemsOf : ∀ (items : List Json) (part : Predicate),
    some part ∈ itemsOf items → part.WellFormed
  -- An item is read by the reader of predicates, whose results are well-formed.
  | [], _, member => by simp [itemsOf] at member
  | item :: rest, part, member => by
    simp only [itemsOf, List.mem_cons] at member
    rcases member with first | later
    · exact wellFormed_of_ofJson? item first.symm
    · exact wellFormed_of_itemsOf rest part later

end

/-- A predicate is read from its value, which has the members in key order, like from its tree. -/
theorem ofJson?_sorted_toJson (predicate : Predicate) :
    ofJson? predicate.toJson.sorted = ofJson? predicate.toJson :=
  -- The keys of each shape are distinct.
  ofJson?_sorted predicate.hasPlainKeys_toJson.distinctKeys

/-- A predicate is read back from its JSON value exactly when it is well-formed; and whatever value
a predicate was read from, it is well-formed, so that it is read back from its own. -/
theorem ofJson?_toJson_iff_wellFormed :
    (∀ predicate : Predicate,
      ofJson? predicate.toJson.sorted = some predicate ↔ predicate.WellFormed) ∧
      ∀ (json : Json) (predicate : Predicate), ofJson? json = some predicate →
        predicate.WellFormed ∧ ofJson? predicate.toJson.sorted = some predicate := by
  -- Only well-formed predicates are read from any value, and so from their own.
  refine ⟨fun predicate => ⟨?_, ?_⟩, fun json predicate read => ?_⟩
  · intro same
    exact wellFormed_of_ofJson? _ same
  · intro formed
    rw [ofJson?_sorted_toJson]
    exact formed.ofJson?_toJson
  · have formed := wellFormed_of_ofJson? json read
    rw [ofJson?_sorted_toJson]
    exact ⟨formed, formed.ofJson?_toJson⟩

/-- A value with a member that no reader knows, and a decision that leaves its last obligations
out. -/
def decisionSample : Json :=
  .obj [("attribute_list", .arr [.obj [("obligations", .arr [])],
      .obj [("obligations", .arr [.obj [("type", .str "obligation"), ("value", .str "log")]])]]),
    ("note", .null), ("operation", .str "if")]

/-- The decision that is read from the sample. -/
def decisionOfSample : Predicate :=
  .conditional (.obligations []) [⟨"obligation", "log"⟩] []

/-- The decision read from the sample is well-formed and is read back. -/
theorem decisionSample_reads_back :
    ofJson? decisionSample = some decisionOfSample ∧ decisionOfSample.WellFormed ∧
      ofJson? decisionOfSample.toJson.sorted = some decisionOfSample := by
  have read : ofJson? decisionSample = some decisionOfSample := by decide +kernel
  exact ⟨read, ofJson?_toJson_iff_wellFormed.2 _ _ read⟩

end Predicate

end Warrant
