import Warrant.Policy.Basic
import Warrant.Proofs.Json.PlainKeys

/-! The objects in the value of a policy have plain and distinct keys. -/

namespace Warrant

open Json (HasPlainKeys ItemsHavePlainKeys MembersHavePlainKeys isPlainKey)

/-- The keys of a fact are plain. -/
theorem Fact.hasPlainKeys_toJson (fact : Fact) : fact.toJson.HasPlainKeys := by
  -- There are two keys, over strings.
  have keys : isPlainKey "type" = true ∧ isPlainKey "value" = true := by decide
  simp [Fact.toJson, HasPlainKeys, MembersHavePlainKeys, keys]

/-- The keys of obligations are plain. -/
theorem Obligations.hasPlainKeys_toJson (obligations : Obligations) :
    obligations.toJson.HasPlainKeys := by
  -- There is one key around the list, and the items are facts.
  have key : isPlainKey "obligations" = true := by decide
  have items : ItemsHavePlainKeys (obligations.map Fact.toJson) := by
    induction obligations with
    | nil => simp [ItemsHavePlainKeys]
    | cons fact rest ih => simp [ItemsHavePlainKeys, ih, fact.hasPlainKeys_toJson]
  simp [Obligations.toJson, HasPlainKeys, MembersHavePlainKeys, key, items]

namespace Predicate

/-- The keys of an operation are plain when those of its attributes are. -/
theorem hasPlainKeys_operation (name : String) {attributes : List Json}
    (plain : ItemsHavePlainKeys attributes) : (operation name attributes).HasPlainKeys := by
  -- There are two keys around the attributes.
  have keys : isPlainKey "operation" = true ∧ isPlainKey "attribute_list" = true := by decide
  simp [operation, HasPlainKeys, MembersHavePlainKeys, keys, plain]

mutual

/-- The keys in a predicate are plain. -/
theorem hasPlainKeys_toJson : ∀ predicate : Predicate, predicate.toJson.HasPlainKeys
  -- By induction on the predicate, of which three shapes are operations.
  | .empty => by simp [toJson, HasPlainKeys, MembersHavePlainKeys]
  | .fact leaf => by
    rw [toJson]
    exact leaf.hasPlainKeys_toJson
  | .logical connective operands => by
    rw [toJson]
    exact hasPlainKeys_operation connective.name (itemsHavePlainKeys_operandsToJson operands)
  | .comparable comparison left right => by
    rw [toJson]
    apply hasPlainKeys_operation comparison.name
    simp [ItemsHavePlainKeys, hasPlainKeys_toJson left, hasPlainKeys_toJson right]
  | .obligations list => by
    rw [toJson]
    exact list.hasPlainKeys_toJson
  | .conditional condition ifTrue ifFalse => by
    rw [toJson]
    apply hasPlainKeys_operation
    simp [ItemsHavePlainKeys, hasPlainKeys_toJson condition, ifTrue.hasPlainKeys_toJson,
      ifFalse.hasPlainKeys_toJson]

/-- The keys in operands are plain. -/
theorem itemsHavePlainKeys_operandsToJson : ∀ operands : List Predicate,
    ItemsHavePlainKeys (operandsToJson operands)
  | [] => by simp [operandsToJson, ItemsHavePlainKeys]
  | operand :: rest => by
    simp [operandsToJson, ItemsHavePlainKeys, hasPlainKeys_toJson operand,
      itemsHavePlainKeys_operandsToJson rest]

end

end Predicate

namespace Body

/-- The keys of obligations that may be left open are plain. -/
theorem hasPlainKeys_obligationsToJson (obligations : Option Obligations) :
    (obligationsToJson obligations).HasPlainKeys := by
  -- What is left open is an object without members.
  cases obligations with
  | none => simp [obligationsToJson, HasPlainKeys, MembersHavePlainKeys]
  | some list => exact list.hasPlainKeys_toJson

/-- The keys of a body are plain. -/
theorem hasPlainKeys_toJson (body : Body) : body.toJson.HasPlainKeys := by
  -- The names of the four slots are plain, and what stands in them is by itself.
  have distinct : [Slot.obligationsOnDeny.name, Slot.obligationsOnGrant.name, Slot.deny.name,
      Slot.grant.name].Nodup := by decide
  have keys : ∀ slot : Slot, isPlainKey slot.name = true := by
    intro slot
    cases slot <;> decide
  refine ⟨distinct, ?_, ?_⟩
  · simp [keys]
  · simp [MembersHavePlainKeys, hasPlainKeys_obligationsToJson, Predicate.hasPlainKeys_toJson]

end Body

namespace Policy

/-- The keys of a payload are plain. -/
theorem hasPlainKeys_payload (hashFunction : String) (body : Body) (cost : String) :
    (payload hashFunction body cost).HasPlainKeys := by
  -- The members are two strings and the body.
  have distinct : ["hash_function", "policy_object", "cost"].Nodup := by decide
  have keys : isPlainKey "hash_function" = true ∧ isPlainKey "policy_object" = true ∧
      isPlainKey "cost" = true := by decide
  refine ⟨distinct, ?_, ?_⟩
  · simp [keys]
  · simp [MembersHavePlainKeys, HasPlainKeys, body.hasPlainKeys_toJson]

end Policy

end Warrant
