import Warrant.Proofs.Json.CanonicalForm
import Warrant.Proofs.Policy.Operators

/-! What a predicate keeps of the value that it is read from. Members of objects may be left out,
but nothing is made up, and of an array that is kept all items are kept in their order. -/

namespace Warrant

namespace Json

/-- The second value is what is left of the first when members of its objects are deleted. Texts are
kept as they are, and arrays with all of their items, in their order. Only to the two attributes of
a decision a third one is appended, obligations of which there are none. -/
inductive TrimsTo : Json → Json → Prop where
  /-- A text is kept as it is. -/
  | text (text : String) : TrimsTo (.str text) (.str text)
  /-- Every item of an array is kept in its place. -/
  | items {items kept : List Json} (each : List.Forall₂ TrimsTo items kept) :
    TrimsTo (.arr items) (.arr kept)
  /-- Some members of an object are deleted, but not all, and others are kept under their keys. -/
  | members {members remaining kept : List (String × Json)} (deleted : remaining.Sublist members)
    (present : kept ≠ []) (keys : remaining.map Prod.fst = kept.map Prod.fst)
    (each : List.Forall₂ TrimsTo (remaining.map Prod.snd) (kept.map Prod.snd)) :
    TrimsTo (.obj members) (.obj kept)
  /-- A decision of two attributes keeps its operation and these, with a third one behind them. -/
  | decision {members : List (String × Json)} {condition ifTrue keptCondition keptIfTrue : Json}
    (named : (Json.obj members).member? "operation" = some (.str "if"))
    (listed : (Json.obj members).member? "attribute_list" = some (.arr [condition, ifTrue]))
    (first : TrimsTo condition keptCondition) (second : TrimsTo ifTrue keptIfTrue) :
    TrimsTo (.obj members) (.obj [("attribute_list",
      .arr [keptCondition, keptIfTrue, .obj [("obligations", .arr [])]]), ("operation", .str "if")])

/-- Members in key order that are found under their keys in an object stand there in that order. -/
theorem IsValue.sublist_of_lookup {members remaining : List (String × Json)}
    (whole : (Json.obj members).IsValue) (ascending : Ascending remaining)
    (found : ∀ entry ∈ remaining, members.lookup entry.1 = some entry.2) :
    remaining.Sublist members :=
  ascending.sublist_of_subset (isValue_obj_iff.mp whole).1 fun entry inside =>
    mem_of_lookup_eq_some (found entry inside)

end Json

open Json (TrimsTo isValue_arr_iff isValue_obj_iff sorted sortedMembers)

namespace Fact

/-- A fact is read from two texts. -/
theorem ofJson?_eq_some_iff {json : Json} {fact : Fact} : ofJson? json = some fact ↔
    json.member? "type" = some (.str fact.type) ∧
      json.member? "value" = some (.str fact.value) := by
  -- Looking a member up and wanting a text of it is said in one equation.
  rw [← Json.bind_text?_eq_some_iff, ← Json.bind_text?_eq_some_iff]
  -- The reader looks both members up and then wants texts of them.
  obtain ⟨type, value⟩ := fact
  constructor
  · intro read
    simp only [ofJson?, Option.bind_eq_bind, Option.bind_eq_some_iff, Option.pure_def] at read
    obtain ⟨_, first, _, typed, _, second, _, valued, same⟩ := read
    cases same
    exact ⟨by rw [first]; exact typed, by rw [second]; exact valued⟩
  · rintro ⟨typed, valued⟩
    simp only [ofJson?, ← Option.bind_assoc, Option.bind_eq_bind, typed, valued]
    rfl

/-- The value of a fact in key order. -/
theorem sorted_toJson (fact : Fact) :
    fact.toJson.sorted = .obj [("type", .str fact.type), ("value", .str fact.value)] := by
  have order : "type" < "value" := by decide
  simp [toJson, sorted, sortedMembers, enter, order]

/-- A fact is what is left of the value that it is read from. -/
theorem trimsTo_of_ofJson? {json : Json} {fact : Fact} (isValue : json.IsValue)
    (read : ofJson? json = some fact) : json.TrimsTo fact.toJson.sorted := by
  -- Both texts stand in members of the object, of which nothing else is left.
  obtain ⟨type, value⟩ := ofJson?_eq_some_iff.mp read
  obtain ⟨members, rfl, type⟩ := Json.exists_of_member?_eq_some type
  -- A value has its members in key order, in which the two stand as they are written again.
  have order : "type" < "value" := by decide
  have deleted : [("type", Json.str fact.type), ("value", .str fact.value)].Sublist members := by
    refine isValue.sublist_of_lookup (List.pairwise_pair.mpr order) ?_
    rw [List.forall_mem_cons, List.forall_mem_singleton]
    exact ⟨type, value⟩
  rw [sorted_toJson]
  exact .members deleted (List.cons_ne_nil _ _) rfl (.cons (.text _) (.cons (.text _) .nil))

end Fact

namespace Obligations

/-- Obligations are read from a list of facts. -/
theorem ofJson?_eq_some_iff {json : Json} {list : Obligations} : ofJson? json = some list ↔
    ∃ items, json.member? "obligations" = some (.arr items) ∧
      items.map Fact.ofJson? = list.map some := by
  -- Listing facts is reading each item, and all of them have to be read.
  simp only [ofJson?, Option.bind_eq_bind, Option.bind_eq_some_iff, mapM_eq_some_iff]
  -- What the member holds has to be an array.
  constructor
  · rintro ⟨value, listed, items, isArray, facts⟩
    cases value with
    | arr others => exact ⟨items, by rw [listed, Option.some.inj isArray], facts⟩
    | _ => cases isArray
  · rintro ⟨items, listed, facts⟩
    exact ⟨.arr items, listed, items, rfl, facts⟩

/-- The value of obligations in key order. -/
theorem sorted_toJson (list : Obligations) : (toJson list).sorted =
    .obj [("obligations", .arr (list.map fun fact => fact.toJson.sorted))] := by
  simp [toJson, sorted, sortedMembers, enter, Json.sortedItems_eq_map]

/-- Obligations are what is left of the value that they are read from. -/
theorem trimsTo_of_ofJson? {json : Json} {list : Obligations} (isValue : json.IsValue)
    (read : ofJson? json = some list) : json.TrimsTo (toJson list).sorted := by
  -- The facts stand in the items of an array under one key.
  obtain ⟨items, listed, facts⟩ := ofJson?_eq_some_iff.mp read
  obtain ⟨members, rfl, listed⟩ := Json.exists_of_member?_eq_some listed
  -- The one member is left, and every item of it is a fact.
  have inner := isValue_arr_iff.mp (isValue.of_lookup listed)
  have deleted : [("obligations", Json.arr items)].Sublist members :=
    isValue.sublist_of_lookup (List.pairwise_singleton _ _) (List.forall_mem_singleton.mpr listed)
  have trimmed : List.Forall₂ TrimsTo items (list.map fun fact => fact.toJson.sorted) := by
    rw [List.forall₂_map_right_iff]
    exact forall₂_of_map_eq_map_some facts fun item inside _ read =>
      Fact.trimsTo_of_ofJson? (inner item inside) read
  rw [sorted_toJson]
  exact .members deleted (List.cons_ne_nil _ _) rfl (.cons (.items trimmed) .nil)

end Obligations

namespace Predicate

/-- The value of an operation in key order. -/
theorem sorted_operation (name : String) (attributes : List Json) :
    (operation name attributes).sorted =
      .obj [("attribute_list", .arr (attributes.map sorted)), ("operation", .str name)] := by
  -- The name is written first, and comes last by key.
  have order : ¬ "operation" < "attribute_list" := by decide
  simp [operation, sorted, sortedMembers, enter, order, Json.sortedItems_eq_map]

/-- An operation on trimmed attributes is what is left of an object that names it and lists the
attributes. -/
theorem trimsTo_operation {json : Json} {name : String} {items attributes : List Json}
    (isValue : json.IsValue) (named : operationOf? json = some name)
    (listed : json.member? "attribute_list" = some (.arr items))
    (each : List.Forall₂ (fun item part => item.TrimsTo part.sorted) items attributes) :
    json.TrimsTo (operation name attributes).sorted := by
  -- The name and the list stand in members of the object, of which nothing else is left.
  obtain ⟨members, rfl, listed⟩ := Json.exists_of_member?_eq_some listed
  -- The two members are left, and of the list every item.
  have order : "attribute_list" < "operation" := by decide
  have deleted : [("attribute_list", .arr items), ("operation", .str name)].Sublist members := by
    refine isValue.sublist_of_lookup (List.pairwise_pair.mpr order) ?_
    rw [List.forall_mem_cons, List.forall_mem_singleton]
    exact ⟨listed, Json.bind_text?_eq_some_iff.mp named⟩
  have trimmed : List.Forall₂ TrimsTo items (attributes.map sorted) :=
    List.forall₂_map_right_iff.mpr each
  rw [sorted_operation]
  exact .members deleted (List.cons_ne_nil _ _) rfl (.cons (.items trimmed) (.cons (.text _) .nil))

end Predicate

namespace Operator

open Predicate (listLike? ofJson?)

/-- An attribute that is read is trimmed to what it stands for, in whatever role. -/
theorem forall₂_trimsTo_children {operator : Operator} {items : List Json} {parts : List Predicate}
    (taken : operator.children items = parts.map some) (values : ∀ item ∈ items, item.IsValue)
    (each : ∀ item ∈ items, ∀ part, ofJson? item = some part → item.TrimsTo part.toJson.sorted) :
    List.Forall₂ (fun item part => item.TrimsTo part.toJson.sorted) items parts := by
  -- A list-like part is a part, and obligations are trimmed in the same way in either role.
  have listLike : ∀ item ∈ items, ∀ part, listLike? (ofJson? item) = some part →
      item.TrimsTo part.toJson.sorted := fun item inside part read =>
    each item inside part (Option.filter_eq_some_iff.mp read).1
  -- A decision reads its condition apart from its branches, and the others read all items alike.
  cases operator with
  | decision =>
    cases items with
    | nil =>
      cases parts with
      | nil => exact .nil
      | cons _ _ => cases taken
    | cons condition branches =>
      cases parts with
      | nil => cases taken
      | cons part others =>
        obtain ⟨first, behind⟩ := List.cons.inj taken
        refine .cons (listLike condition List.mem_cons_self part first) ?_
        refine forall₂_of_map_eq_map_some behind fun branch inside result read => ?_
        obtain ⟨list, found, rfl⟩ := Option.map_eq_some_iff.mp read
        rw [Predicate.toJson]
        exact Obligations.trimsTo_of_ofJson? (values branch (List.mem_cons_of_mem _ inside)) found
  | logical connective => exact forall₂_of_map_eq_map_some taken listLike
  | comparable comparison => exact forall₂_of_map_eq_map_some taken each

/-- A node of an operator is what is left of the object that it is read from, if its children are
what is left of the attributes. -/
theorem trimsTo_of_reads {operator : Operator} {json : Json} {node : Predicate}
    (isValue : json.IsValue) (named : Predicate.operationOf? json = some operator.name)
    (read : operator.Reads json node)
    (each : ∀ items, json.member? "attribute_list" = some (.arr items) → ∀ item ∈ items,
      ∀ part, ofJson? item = some part → item.TrimsTo part.toJson.sorted) :
    json.TrimsTo node.toJson.sorted := by
  -- What the children are trimmed to is known, and the four kinds of node put them together.
  obtain ⟨items, parts, listed, taken, joined⟩ := read
  -- The attributes are values, since the object is, and each of them is trimmed to its part.
  have values : ∀ item ∈ items, item.IsValue := by
    obtain ⟨members, rfl, listed⟩ := Json.exists_of_member?_eq_some listed
    exact isValue_arr_iff.mp (isValue.of_lookup listed)
  have trimmed := forall₂_trimsTo_children taken values (each items listed)
  have attributes : List.Forall₂ (fun item part => item.TrimsTo part.sorted) items
      (parts.map Predicate.toJson) := List.forall₂_map_right_iff.mpr trimmed
  cases joined with
  | shortDecision condition ifTrue =>
    -- The third attribute is not there, and is written for the obligations that were left out.
    obtain ⟨members, rfl, listed⟩ := Json.exists_of_member?_eq_some listed
    obtain ⟨_, _, first, behind, rfl⟩ := List.forall₂_cons_right_iff.mp trimmed
    obtain ⟨_, _, second, nothing, rfl⟩ := List.forall₂_cons_right_iff.mp behind
    obtain rfl := List.forall₂_nil_right_iff.mp nothing
    have empty : (Obligations.toJson []).sorted = .obj [("obligations", .arr [])] := by
      rw [Obligations.sorted_toJson, List.map_nil]
    rw [Predicate.toJson, Predicate.sorted_operation, List.map_cons, List.map_cons, List.map_cons,
      List.map_nil, empty]
    rw [Predicate.toJson] at second
    exact .decision (Json.bind_text?_eq_some_iff.mp named) listed first second
  -- The other kinds of node are written with the attributes they were read from.
  | decision condition ifTrue ifFalse =>
    rw [Predicate.toJson]
    exact Predicate.trimsTo_operation isValue named listed attributes
  | logical connective enough =>
    rw [Predicate.toJson, Predicate.operandsToJson_eq_map]
    exact Predicate.trimsTo_operation isValue named listed attributes
  | comparable comparison left right =>
    rw [Predicate.toJson]
    exact Predicate.trimsTo_operation isValue named listed attributes

end Operator

namespace Predicate

/-- A predicate is what is left of an object that it is read from, if whatever is read from the
attributes is what is left of these. -/
theorem trimsTo_of_ofJson?_obj {members : List (String × Json)} {predicate : Predicate}
    (isValue : (Json.obj members).IsValue) (read : ofJson? (.obj members) = some predicate)
    (each : ∀ items, (Json.obj members).member? "attribute_list" = some (.arr items) →
      ∀ item ∈ items, ∀ part, ofJson? item = some part → item.TrimsTo part.toJson.sorted) :
    (Json.obj members).TrimsTo predicate.toJson.sorted := by
  -- The object stands for a node of its operator, or for what it holds beside one.
  rcases reads_or_beside_of_ofJson? read with ⟨operator, named, node⟩ | beside
  · exact operator.trimsTo_of_reads isValue named node each
  · rcases Option.or_eq_some_iff.mp beside with list | ⟨_, fact⟩
    · obtain ⟨list, found, rfl⟩ := Option.map_eq_some_iff.mp list
      rw [toJson]
      exact Obligations.trimsTo_of_ofJson? isValue found
    · obtain ⟨fact, found, rfl⟩ := Option.map_eq_some_iff.mp fact
      rw [toJson]
      exact Fact.trimsTo_of_ofJson? isValue found

/-- A predicate is what is left of the value that it is read from. -/
theorem trimsTo_toJson_of_ofJson? {json : Json} {predicate : Predicate} (isValue : json.IsValue)
    (read : ofJson? json = some predicate) : json.TrimsTo predicate.toJson.sorted := by
  -- By induction on the value, for all that it is made of: attributes are items of a member.
  suffices parts : ∀ part, json.Holds part → ∀ predicate, ofJson? part = some predicate →
      part.TrimsTo predicate.toJson.sorted from parts json (.self json) predicate read
  clear read
  induction json using Json.induction with
  -- A leaf holds itself only, and no predicate is read from it.
  | null | bool _ | int _ | float _ | str _ =>
    intro part held other read
    rw [(Json.holds_leaf_iff rfl rfl).mp held] at read
    cases read
  | arr items ih =>
    intro part held other read
    -- An array is not read itself, and its items are values of less depth.
    rcases Json.holds_arr_iff.mp held with rfl | ⟨item, inside, deeper⟩
    · cases read
    · exact ih item inside (isValue_arr_iff.mp isValue item inside) part deeper other read
  | obj members ih =>
    -- What stands below a member has been dealt with.
    have below : ∀ member ∈ members, ∀ part, member.2.Holds part → ∀ other,
        ofJson? part = some other → part.TrimsTo other.toJson.sorted := fun member inside =>
      ih member inside ((isValue_obj_iff.mp isValue).2 member inside)
    intro part held other read
    rcases Json.holds_obj_iff.mp held with rfl | ⟨member, inside, deeper⟩
    · -- The object itself is trimmed once its attributes are, which stand in one of its members.
      refine trimsTo_of_ofJson?_obj isValue read fun items listed item inside => ?_
      exact below _ (mem_of_lookup_eq_some listed) item (.item inside (.self item))
    · exact below member inside part deeper other read

/-- A decision of two attributes, with members in it that no reader knows. -/
def annotatedDecision : Json :=
  .obj [("attribute_list", .arr [.obj [("note", .int 1), ("obligations", .arr [])],
      .obj [("obligations", .arr [.obj [("type", .str "obligation"), ("value", .str "log"),
        ("version", .null)]])]]),
    ("note", .str "temporary"), ("operation", .str "if")]

/-- The decision loses the members that no reader knows, and gets the obligations that it leaves
out. -/
theorem annotatedDecision_trimmed :
    annotatedDecision.IsValue ∧
      ofJson? annotatedDecision = some (.conditional (.obligations []) [⟨"obligation", "log"⟩] []) ∧
      annotatedDecision.TrimsTo (.obj [("attribute_list", .arr [.obj [("obligations", .arr [])],
          .obj [("obligations", .arr [.obj [("type", .str "obligation"), ("value", .str "log")]])],
          .obj [("obligations", .arr [])]]),
        ("operation", .str "if")]) := by
  -- The leaves of the value are texts, a number without a fraction and a null.
  have text (words : String) : (Json.str words).IsValue := Json.isValue_of_leaf rfl rfl (by simp)
  have number : (Json.int 1).IsValue :=
    Json.isValue_of_leaf rfl rfl fun n same => by
      cases same
      rfl
  have null : Json.null.IsValue := Json.isValue_of_leaf rfl rfl (by simp)
  have isValue : annotatedDecision.IsValue := by
    -- There are no other leaves, and the keys of each object ascend.
    simp only [annotatedDecision, isValue_obj_iff, isValue_arr_iff, Ascending,
      List.forall_mem_cons, List.not_mem_nil, false_imp_iff, implies_true, List.pairwise_cons,
      List.Pairwise.nil, and_true, text, number, null]
    decide
  have read : ofJson? annotatedDecision =
      some (.conditional (.obligations []) [⟨"obligation", "log"⟩] []) := by decide +kernel
  exact ⟨isValue, read, trimsTo_toJson_of_ofJson? isValue read⟩

end Predicate

end Warrant
