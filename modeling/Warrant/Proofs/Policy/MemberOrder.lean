import Warrant.Policy.PredicateJson
import Warrant.Proofs.Json.Sorted

/-! Readers find members by their keys, so that a tree is read like its value. -/

namespace Warrant

open Json (DistinctKeys ItemsDistinctKeys MembersDistinctKeys sorted sortedItems
  sortedMembers member?_sorted)

/-- A text under a key is the member with this key. -/
theorem Json.bind_text?_eq_some_iff {json : Json} {key text : String} :
    (json.member? key).bind Json.text? = some text ↔ json.member? key = some (.str text) := by
  -- No other value has a text.
  rw [Option.bind_eq_some_iff]
  constructor
  · rintro ⟨value, found, isText⟩
    cases value with
    | str other =>
      rw [Json.text?, Option.some.injEq] at isText
      rw [found, isText]
    | _ => simp [Json.text?] at isText
  · intro found
    exact ⟨.str text, found, rfl⟩

/-- A text under a key stands there in the value as well. -/
theorem Json.bind_text?_sorted {json : Json} (distinct : json.DistinctKeys) (key : String) :
    (json.sorted.member? key).bind Json.text? = (json.member? key).bind Json.text? := by
  rw [member?_sorted distinct, Option.bind_map]
  exact congrArg _ (funext Json.text?_sorted)

/-- A fact is read from a tree like from its value. -/
theorem Fact.ofJson?_sorted {json : Json} (distinct : json.DistinctKeys) :
    Fact.ofJson? json.sorted = Fact.ofJson? json := by
  -- Both members are texts, which sorting leaves alone.
  simp only [Fact.ofJson?, member?_sorted distinct, Option.bind_eq_bind, Option.bind_map,
    Function.comp_def, Json.text?_sorted]

/-- Facts are read from items like from their values. -/
theorem Fact.mapM_ofJson?_sortedItems {items : List Json} (distinct : ItemsDistinctKeys items) :
    (sortedItems items).mapM Fact.ofJson? = items.mapM Fact.ofJson? := by
  -- Items keep their order, and each of them is read by itself.
  induction items with
  | nil => rfl
  | cons item rest ih =>
    rw [ItemsDistinctKeys] at distinct
    rw [sortedItems, List.mapM_cons, List.mapM_cons, ih distinct.2, Fact.ofJson?_sorted distinct.1]

/-- Obligations are read from a tree like from its value. -/
theorem Obligations.ofJson?_sorted {json : Json} (distinct : json.DistinctKeys) :
    Obligations.ofJson? json.sorted = Obligations.ofJson? json := by
  -- Only the items of an array under the one key matter.
  rw [Obligations.ofJson?, Obligations.ofJson?, member?_sorted distinct]
  cases found : json.member? "obligations" with
  | none => rfl
  | some value =>
    have inner := distinct.of_member? found
    cases value with
    | arr items =>
      rw [DistinctKeys] at inner
      exact Fact.mapM_ofJson?_sortedItems inner
    | _ => rfl

namespace Predicate

/-- The name of an operation is found in a tree like in its value. -/
theorem operationOf?_sorted {json : Json} (distinct : json.DistinctKeys) :
    operationOf? json.sorted = operationOf? json :=
  Json.bind_text?_sorted distinct "operation"

/-- The attributes of a tree are the first member with their key. -/
theorem attributesOf?_eq_lookup (members : List (String × Json)) :
    attributesOf? members = (members.lookup "attribute_list").bind listOf? := by
  -- The reader walks the members in the order of a look-up.
  induction members with
  | nil => simp [attributesOf?]
  | cons member rest ih =>
    obtain ⟨key, value⟩ := member
    rw [attributesOf?, lookup_cons_eq_ite, ih]
    by_cases same : key = "attribute_list"
    · rw [if_pos same, if_pos same.symm, Option.bind_some]
    · rw [if_neg same, if_neg (Ne.symm same)]

/-- A decision is read from a tree like from its value. -/
theorem conditionalOf?_sorted {json : Json} (distinct : json.DistinctKeys)
    (parts : List (Option Predicate)) :
    conditionalOf? json.sorted parts = conditionalOf? json parts := by
  -- The obligations of both outcomes are read from items of the attributes.
  rw [conditionalOf?, conditionalOf?, operationOf?_sorted distinct, member?_sorted distinct]
  cases found : json.member? "attribute_list" with
  | none => rfl
  | some value =>
    have inner := distinct.of_member? found
    cases value with
    | arr items =>
      rw [DistinctKeys] at inner
      -- There are two items or three, and as many parts, or nothing is read at all.
      rcases parts with _ | ⟨_, _ | ⟨_, _ | ⟨_, _ | _⟩⟩⟩ <;>
        rcases items with _ | ⟨first, _ | ⟨second, _ | ⟨third, _ | _⟩⟩⟩ <;>
        simp only [ItemsDistinctKeys] at inner <;>
        simp [Json.items?, sorted, sortedItems, Obligations.ofJson?_sorted, inner]
    | _ => rfl

/-- What is made of the parts of a tree is made of those of its value as well. -/
theorem ofParts?_sorted {json : Json} (distinct : json.DistinctKeys)
    (parts : Option (List (Option Predicate))) :
    ofParts? json.sorted parts = ofParts? json parts := by
  -- Each of the five readers finds in the value what it finds in the tree.
  have decision : conditionalOf? json.sorted = conditionalOf? json :=
    funext (conditionalOf?_sorted distinct)
  have connective : logicalOf? json.sorted = logicalOf? json := by
    funext parts
    rw [logicalOf?, logicalOf?, operationOf?_sorted distinct]
  have comparison : comparableOf? json.sorted = comparableOf? json := by
    funext parts
    rw [comparableOf?, comparableOf?, operationOf?_sorted distinct]
  rw [ofParts?, ofParts?, decision, connective, comparison, Obligations.ofJson?_sorted distinct,
    Fact.ofJson?_sorted distinct]

mutual

/-- A predicate is read from a tree like from its value. -/
theorem ofJson?_sorted : ∀ {json : Json}, json.DistinctKeys → ofJson? json.sorted = ofJson? json
  -- By induction on the tree: the attributes hold the same parts, from which the rest is made.
  | .obj members, distinct => by
    have whole := distinct
    rw [DistinctKeys] at distinct
    have parts := attributesOf?_sortedMembers distinct.1 distinct.2
    rw [sorted, ofJson?, ofJson?, parts]
    exact ofParts?_sorted whole _
  | .null, _ | .bool _, _ | .int _, _ | .float _, _ | .str _, _ | .arr _, _ => by
    simp [sorted, ofJson?]

/-- The attributes are read from members like from their values. -/
theorem attributesOf?_sortedMembers : ∀ {members : List (String × Json)},
    (members.map Prod.fst).Nodup → MembersDistinctKeys members →
    attributesOf? (sortedMembers members) = attributesOf? members
  -- Sorting keeps the value of the one member that is looked up.
  | [], _, _ => rfl
  | (key, value) :: rest, keys, distinct => by
    rw [MembersDistinctKeys] at distinct
    rw [attributesOf?_eq_lookup, Json.lookup_sortedMembers keys, lookup_cons_eq_ite, attributesOf?]
    rw [List.map_cons, List.nodup_cons] at keys
    by_cases same : key = "attribute_list"
    · rw [if_pos same, if_pos same.symm, Option.map_some, Option.bind_some]
      exact listOf?_sorted distinct.1
    · rw [if_neg same, if_neg (Ne.symm same), ← attributesOf?_sortedMembers keys.2 distinct.2,
        attributesOf?_eq_lookup, Json.lookup_sortedMembers keys.2]

/-- Listed attributes are read from a tree like from its value. -/
theorem listOf?_sorted : ∀ {json : Json}, json.DistinctKeys → listOf? json.sorted = listOf? json
  | .arr items, distinct => by
    -- The items keep their places when the members in them are sorted.
    rw [DistinctKeys] at distinct
    rw [sorted, listOf?, listOf?, itemsOf_sortedItems distinct]
  | .null, _ | .bool _, _ | .int _, _ | .float _, _ | .str _, _ | .obj _, _ => by
    simp [sorted, listOf?]

/-- Items are read like their values. -/
theorem itemsOf_sortedItems : ∀ {items : List Json}, ItemsDistinctKeys items →
    itemsOf (sortedItems items) = itemsOf items
  | [], _ => rfl
  -- Each item is read by the reader of predicates, one level further down.
  | item :: rest, distinct => by
    rw [ItemsDistinctKeys] at distinct
    rw [sortedItems, itemsOf, itemsOf, ofJson?_sorted distinct.1, itemsOf_sortedItems distinct.2]

end

end Predicate

end Warrant
