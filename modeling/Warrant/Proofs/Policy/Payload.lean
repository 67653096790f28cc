import Warrant.Proofs.Policy.WellFormed

/-! What the identifier of a policy is a digest of: the members of its objects in key order, and the
policy that this value stands for. -/

namespace Warrant

open Json (itemsInKeyOrder membersInKeyOrder keysInOrder_iff)

namespace Fact

/-- The members of a fact are declared in key order. -/
theorem inKeyOrder_toJson (fact : Fact) : fact.toJson.inKeyOrder = fact.toJson := by
  simp +decide [toJson, Json.inKeyOrder, membersInKeyOrder, keysInOrder_iff]

/-- Facts with the same value are the same. -/
theorem toJson_injective {a b : Fact} (same : a.toJson = b.toJson) : a = b := by
  -- Both facts are read back from the one value.
  have read := ofJson?_toJson a
  rw [same, ofJson?_toJson, Option.some.injEq] at read
  exact read.symm

end Fact

namespace Obligations

/-- Obligations are declared in key order. -/
theorem inKeyOrder_toJson (obligations : Obligations) :
    obligations.toJson.inKeyOrder = obligations.toJson := by
  -- One member needs no order, and the facts under it have theirs.
  have items : itemsInKeyOrder (obligations.map Fact.toJson) = obligations.map Fact.toJson := by
    induction obligations with
    | nil => rfl
    | cons fact rest ih => simp [itemsInKeyOrder, ih, fact.inKeyOrder_toJson]
  simp [toJson, Json.inKeyOrder, membersInKeyOrder, items]

/-- Obligations with the same value are the same. -/
theorem toJson_injective {a b : Obligations} (same : a.toJson = b.toJson) : a = b := by
  -- Both lists are read back from the one value.
  have read := ofJson?_toJson a
  rw [same, ofJson?_toJson, Option.some.injEq] at read
  exact read.symm

end Obligations

namespace Predicate

/-- The list of attributes comes before the name of the operation. -/
theorem inKeyOrder_operation (name : String) (attributes : List Json) :
    (operation name attributes).inKeyOrder =
      .obj [("attribute_list", .arr (itemsInKeyOrder attributes)), ("operation", .str name)] := by
  simp +decide [operation, Json.inKeyOrder, membersInKeyOrder, keysInOrder_iff]

/-- The ordered value of the empty predicate. -/
@[simp] theorem inKeyOrder_empty : (toJson .empty).inKeyOrder = .obj [] := by
  simp [toJson, Json.inKeyOrder, membersInKeyOrder]

/-- The ordered value of a fact. -/
@[simp] theorem inKeyOrder_fact (leaf : Fact) : (toJson (.fact leaf)).inKeyOrder =
    .obj [("type", .str leaf.type), ("value", .str leaf.value)] := by
  rw [toJson, leaf.inKeyOrder_toJson, Fact.toJson]

/-- The ordered value of operands under a connective. -/
@[simp] theorem inKeyOrder_logical (connective : Connective) (operands : List Predicate) :
    (toJson (.logical connective operands)).inKeyOrder =
      .obj [("attribute_list", .arr (itemsInKeyOrder (operandsToJson operands))),
        ("operation", .str connective.name)] := by
  rw [toJson, inKeyOrder_operation]

/-- The ordered value of a comparison. -/
@[simp] theorem inKeyOrder_comparable (comparison : Comparison) (left right : Predicate) :
    (toJson (.comparable comparison left right)).inKeyOrder =
      .obj [("attribute_list", .arr [left.toJson.inKeyOrder, right.toJson.inKeyOrder]),
        ("operation", .str comparison.name)] := by
  rw [toJson, inKeyOrder_operation]
  rfl

/-- The ordered value of obligations. -/
@[simp] theorem inKeyOrder_obligations (list : Obligations) :
    (toJson (.obligations list)).inKeyOrder =
      .obj [("obligations", .arr (list.map Fact.toJson))] := by
  rw [toJson, list.inKeyOrder_toJson, Obligations.toJson]

/-- The ordered value of a decision. -/
@[simp] theorem inKeyOrder_conditional (condition : Predicate) (ifTrue ifFalse : Obligations) :
    (toJson (.conditional condition ifTrue ifFalse)).inKeyOrder =
      .obj [("attribute_list", .arr [condition.toJson.inKeyOrder, ifTrue.toJson, ifFalse.toJson]),
        ("operation", .str "if")] := by
  rw [toJson, inKeyOrder_operation]
  simp [itemsInKeyOrder, Obligations.inKeyOrder_toJson]

/-- Two ordered operations are the same in their attributes and their names. -/
theorem orderedOperation_inj {a b : String} {as bs : List Json} :
    Json.obj [("attribute_list", .arr as), ("operation", .str a)] =
      .obj [("attribute_list", .arr bs), ("operation", .str b)] ↔ as = bs ∧ a = b := by
  simp

mutual

/-- Predicates with the same ordered value are the same, also those that no reader would accept. -/
theorem inKeyOrder_toJson_injective : ∀ {a b : Predicate},
    a.toJson.inKeyOrder = b.toJson.inKeyOrder → a = b
  -- By induction on both predicates: shapes differ in their keys, and operations in their names.
  | .empty, b, same => by
    cases b with
    | empty => rfl
    | _ => simp at same
  -- Facts are the two texts in them.
  | .fact leaf, b, same => by
    cases b with
    | fact other =>
      cases leaf
      cases other
      simpa using same
    | _ => simp at same
  -- Connectives and comparisons have different names, and operations with one name the same parts.
  | .logical c operands, b, same => by
    cases b with
    | logical d others =>
      rw [inKeyOrder_logical, inKeyOrder_logical, orderedOperation_inj] at same
      rw [operandsToJson_injective same.1, Connective.name_inj.1 same.2]
    | comparable d left right =>
      rw [inKeyOrder_logical, inKeyOrder_comparable, orderedOperation_inj] at same
      exact absurd same.2.symm (d.name_ne_connective c)
    | _ => simp at same
  | .comparable c left right, b, same => by
    cases b with
    -- A comparison has two attributes, which are its sides.
    | comparable d left' right' =>
      rw [inKeyOrder_comparable, inKeyOrder_comparable, orderedOperation_inj] at same
      obtain ⟨sides, names⟩ := same
      obtain ⟨first, second⟩ := List.cons.inj sides
      rw [inKeyOrder_toJson_injective first, inKeyOrder_toJson_injective (List.cons.inj second).1,
        Comparison.name_inj.1 names]
    | _ => simp at same
  | .obligations list, b, same => by
    cases b with
    | obligations other =>
      rw [inKeyOrder_obligations, inKeyOrder_obligations] at same
      rw [Obligations.toJson_injective same]
    | _ => simp at same
  | .conditional condition ifTrue ifFalse, b, same => by
    cases b with
    -- A decision has three attributes, its condition and two lists of obligations.
    | conditional condition' ifTrue' ifFalse' =>
      rw [inKeyOrder_conditional, inKeyOrder_conditional, orderedOperation_inj] at same
      obtain ⟨first, branches⟩ := List.cons.inj same.1
      obtain ⟨second, last⟩ := List.cons.inj branches
      rw [inKeyOrder_toJson_injective first, Obligations.toJson_injective second,
        Obligations.toJson_injective (List.cons.inj last).1]
    -- No other operator is called like a decision.
    | logical d others =>
      rw [inKeyOrder_conditional, inKeyOrder_logical, orderedOperation_inj] at same
      exact absurd same.2.symm d.name_ne_if
    | comparable d left right =>
      rw [inKeyOrder_conditional, inKeyOrder_comparable, orderedOperation_inj] at same
      exact absurd same.2.symm d.name_ne_if
    | _ => simp at same

/-- Operands with the same ordered values are the same. -/
theorem operandsToJson_injective : ∀ {as bs : List Predicate},
    itemsInKeyOrder (operandsToJson as) = itemsInKeyOrder (operandsToJson bs) → as = bs
  -- By recursion along both lists, which end together because their values do.
  | [], [], _ => rfl
  | [], _ :: _, same | _ :: _, [], same => by simp [operandsToJson, itemsInKeyOrder] at same
  | a :: as, b :: bs, same => by
    simp only [operandsToJson, itemsInKeyOrder, List.cons.injEq] at same
    rw [inKeyOrder_toJson_injective same.1, operandsToJson_injective same.2]

end

end Predicate

namespace Body

/-- Obligations are declared in key order, also when they are left open. -/
theorem inKeyOrder_obligationsToJson (obligations : Option Obligations) :
    (obligationsToJson obligations).inKeyOrder = obligationsToJson obligations := by
  -- There is at most one member to order.
  cases obligations with
  | none => simp [obligationsToJson, Json.inKeyOrder, membersInKeyOrder]
  | some list => exact list.inKeyOrder_toJson

/-- Obligations that are left open have another value than those that are empty. -/
theorem obligationsToJson_injective {a b : Option Obligations}
    (same : obligationsToJson a = obligationsToJson b) : a = b := by
  -- What is left open has no members, and obligations have one.
  cases a with
  | none =>
    cases b with
    | none => rfl
    | some other => simp [obligationsToJson, Obligations.toJson] at same
  | some list =>
    cases b with
    | none => simp [obligationsToJson, Obligations.toJson] at same
    | some other => rw [Obligations.toJson_injective same]

/-- The members of a body are declared in key order. -/
theorem inKeyOrder_toJson (body : Body) : body.toJson.inKeyOrder =
    .obj [("obligation_deny", obligationsToJson body.obligationsOnDeny),
      ("obligation_grant", obligationsToJson body.obligationsOnGrant),
      ("policy_doc", body.deny.toJson.inKeyOrder),
      ("policy_goc", body.grant.toJson.inKeyOrder)] := by
  -- The declared order of the four slots is that of their names.
  simp only [toJson, Json.inKeyOrder, membersInKeyOrder, inKeyOrder_obligationsToJson, Slot.name]
  congr 1
  apply List.Pairwise.insertionSort_eq
  simp +decide [keysInOrder_iff]

/-- Bodies with the same ordered value are the same. -/
theorem inKeyOrder_toJson_injective {a b : Body}
    (same : a.toJson.inKeyOrder = b.toJson.inKeyOrder) : a = b := by
  -- The four slots are compared one by one.
  rw [inKeyOrder_toJson, inKeyOrder_toJson] at same
  simp only [Json.obj.injEq, List.cons.injEq, Prod.mk.injEq, true_and, and_true] at same
  obtain ⟨onDeny, onGrant, deny, grant⟩ := same
  cases a
  cases b
  simp only [Body.mk.injEq]
  exact ⟨obligationsToJson_injective onDeny, obligationsToJson_injective onGrant,
    Predicate.inKeyOrder_toJson_injective deny, Predicate.inKeyOrder_toJson_injective grant⟩

end Body

namespace Policy

/-- The cost comes first, then the hash function as it is written, and the body last. -/
theorem inKeyOrder_payload (hashFunction : String) (body : Body) (cost : String) :
    (payload hashFunction body cost).inKeyOrder =
      .obj [("cost", .str cost), ("hash_function", .str hashFunction),
        ("policy_object", body.toJson.inKeyOrder)] := by
  -- Three keys are sorted, whatever stands under them.
  simp +decide [payload, Json.inKeyOrder, membersInKeyOrder, keysInOrder_iff]

/-- The canonical text of a payload is its reference text. -/
theorem canonicalText_payload (hashFunction : String) (body : Body) (cost : String) :
    (payload hashFunction body cost).canonicalText =
      (payload hashFunction body cost).referenceText :=
  Json.canonicalText_eq_referenceText (hasPlainKeys_payload hashFunction body cost)

/-- The canonical text of a payload determines the hash function, the body and the cost. -/
theorem canonicalText_payload_injective {h₁ h₂ c₁ c₂ : String} {o₁ o₂ : Body}
    (same : (payload h₁ o₁ c₁).canonicalText = (payload h₂ o₂ c₂).canonicalText) :
    h₁ = h₂ ∧ o₁ = o₂ ∧ c₁ = c₂ := by
  -- The texts are those of the same value, whose members are the three parts.
  have ordered := Json.inKeyOrder_eq_of_canonicalText_eq
    ⟨hasPlainKeys_payload h₁ o₁ c₁, firstFloat?_payload h₁ o₁ c₁⟩
    ⟨hasPlainKeys_payload h₂ o₂ c₂, firstFloat?_payload h₂ o₂ c₂⟩ same
  rw [inKeyOrder_payload, inKeyOrder_payload] at ordered
  simp only [Json.obj.injEq, List.cons.injEq, Prod.mk.injEq, Json.str.injEq, true_and, and_true]
    at ordered
  obtain ⟨cost, hashFunction, body⟩ := ordered
  exact ⟨hashFunction, Body.inKeyOrder_toJson_injective body, cost⟩

end Policy

end Warrant
