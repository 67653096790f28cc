import Warrant.Proofs.Json.Entries

/-! Induction over trees, and what the walks over items and members come to. -/

namespace Warrant.Json

/-- A property holds of all trees when a tree has it as soon as all its items and members do. -/
@[elab_as_elim] theorem induction {motive : Json → Prop} (null : motive .null)
    (bool : ∀ value, motive (.bool value)) (int : ∀ value, motive (.int value))
    (float : ∀ value, motive (.float value)) (str : ∀ text, motive (.str text))
    (arr : ∀ items, (∀ item ∈ items, motive item) → motive (.arr items))
    (obj : ∀ members, (∀ member ∈ members, motive member.2) → motive (.obj members)) :
    ∀ json, motive json := by
  -- The recursor of the nested type speaks of items, of members and of one member besides.
  refine @Json.rec motive (fun items => ∀ item ∈ items, motive item)
    (fun members => ∀ member ∈ members, motive member.2) (fun member => motive member.2)
    null bool int float str arr obj ?_ ?_ ?_ ?_ ?_
  · exact fun _ member => absurd member List.not_mem_nil
  · exact fun item rest first behind => List.forall_mem_cons.mpr ⟨first, behind⟩
  · exact fun _ member => absurd member List.not_mem_nil
  · exact fun member rest first behind => List.forall_mem_cons.mpr ⟨first, behind⟩
  · exact fun _ _ value => value

/-- The values of items are taken one by one. -/
theorem sortedItems_eq_map (items : List Json) : sortedItems items = items.map sorted := by
  induction items with
  | nil => rfl
  | cons item rest ih => rw [sortedItems, ih, List.map_cons]

/-- The values of members are entered under their keys. -/
theorem sortedMembers_eq_enterAll (members : List (String × Json)) :
    sortedMembers members = enterAll (members.map (Prod.map id sorted)) := by
  induction members with
  | nil => rfl
  | cons member rest ih => exact congrArg (enter member.1 member.2.sorted) ih

/-- Items nest no deeper than each of them. -/
theorem depthItems_le_iff (items : List Json) (levels : Nat) :
    depthItems items ≤ levels ↔ ∀ item ∈ items, item.depth ≤ levels := by
  induction items with
  | nil => simp [depthItems]
  | cons item rest ih => rw [depthItems, Nat.max_le, ih, List.forall_mem_cons]

/-- Members nest no deeper than each of them. -/
theorem depthMembers_le_iff (members : List (String × Json)) (levels : Nat) :
    depthMembers members ≤ levels ↔ ∀ member ∈ members, member.2.depth ≤ levels := by
  induction members with
  | nil => simp [depthMembers]
  | cons member rest ih => rw [depthMembers, Nat.max_le, ih, List.forall_mem_cons]

/-- Items hold no float when none of them does. -/
theorem firstFloatItem?_eq_none_iff (items : List Json) :
    firstFloatItem? items = none ↔ ∀ item ∈ items, item.firstFloat? = none := by
  induction items with
  | nil => simp [firstFloatItem?]
  | cons item rest ih => simp [firstFloatItem?, ih]

/-- Members hold no float when none of them does, in whatever order they stand. -/
theorem firstFloatMember?_eq_none_iff (members : List (String × Json)) :
    firstFloatMember? members = none ↔ ∀ member ∈ members, member.2.firstFloat? = none := by
  induction members with
  | nil => simp [firstFloatMember?]
  | cons member rest ih => simp [firstFloatMember?, ih]

end Warrant.Json
