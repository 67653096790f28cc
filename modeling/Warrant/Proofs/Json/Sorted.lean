import Warrant.Json.Basic

/-! A tree without repeated keys has the same members as its value, in another order. -/

namespace Warrant

/-- A key is looked up in the first entry or else behind it. -/
theorem lookup_cons_eq_ite {α : Type} (key name : String) (content : α)
    (rest : List (String × α)) : ((name, content) :: rest).lookup key =
      if key = name then some content else rest.lookup key := by
  -- The search compares the names by their Boolean equality.
  by_cases same : key = name
  · rw [if_pos same, same, List.lookup_cons_self]
  · rw [if_neg same, List.lookup_cons, beq_false_of_ne same]

/-- A key without an entry differs from the names of all entries. -/
theorem ne_of_lookup_eq_none {α : Type} {key name : String} {content : α}
    {rest : List (String × α)} (absent : ((name, content) :: rest).lookup key = none) :
    key ≠ name ∧ rest.lookup key = none := by
  -- The search would have stopped at the first entry.
  rw [lookup_cons_eq_ite] at absent
  split at absent
  · cases absent
  · exact ⟨‹_›, absent⟩

/-- What is found under a key stands there. -/
theorem mem_of_lookup_eq_some {α : Type} {key : String} {content : α} {entries : List (String × α)}
    (found : entries.lookup key = some content) : (key, content) ∈ entries := by
  obtain ⟨before, after, rfl, _⟩ := List.lookup_eq_some_iff.mp found
  exact List.mem_append_right before List.mem_cons_self

/-- A new key is entered without a change to what stands under the others. -/
theorem lookup_enter {α : Type} {key : String} {entries : List (String × α)} (value : α)
    (new : entries.lookup key = none) (other : String) :
    (enter key value entries).lookup other =
      if other = key then some value else entries.lookup other := by
  -- The key goes in front of some entry, and no entry has the same key.
  induction entries with
  | nil => rw [enter, lookup_cons_eq_ite]
  | cons entry rest ih =>
    obtain ⟨name, content⟩ := entry
    obtain ⟨different, newBehind⟩ := ne_of_lookup_eq_none new
    rw [enter]
    by_cases before : key < name
    · rw [if_pos before, lookup_cons_eq_ite]
    · rw [if_neg before, if_neg different, lookup_cons_eq_ite, lookup_cons_eq_ite, ih newBehind]
      by_cases found : other = name
      · rw [if_pos found, if_neg (fun same => different (same.symm.trans found)), if_pos found]
      · rw [if_neg found, if_neg found]

namespace Json

mutual

/-- No object in a tree repeats a key. -/
def DistinctKeys : Json → Prop
  | .arr items => ItemsDistinctKeys items
  | .obj members => (members.map Prod.fst).Nodup ∧ MembersDistinctKeys members
  | _ => True

/-- No object in the items repeats a key. -/
def ItemsDistinctKeys : List Json → Prop
  | [] => True
  | item :: rest => item.DistinctKeys ∧ ItemsDistinctKeys rest

/-- No object in the values of members repeats a key. -/
def MembersDistinctKeys : List (String × Json) → Prop
  | [] => True
  | (_, value) :: rest => value.DistinctKeys ∧ MembersDistinctKeys rest

end

/-- Items repeat no keys when none of them does. -/
theorem itemsDistinctKeys_iff (items : List Json) :
    ItemsDistinctKeys items ↔ ∀ item ∈ items, item.DistinctKeys := by
  induction items with
  | nil => simp [ItemsDistinctKeys]
  | cons item rest ih => simp [ItemsDistinctKeys, ih]

/-- The values of members repeat no keys when none of them does. -/
theorem membersDistinctKeys_iff (members : List (String × Json)) :
    MembersDistinctKeys members ↔ ∀ member ∈ members, member.2.DistinctKeys := by
  induction members with
  | nil => simp [MembersDistinctKeys]
  | cons member rest ih => simp [MembersDistinctKeys, ih]

/-- No object in a member that was found repeats a key. -/
theorem DistinctKeys.of_lookup {members : List (String × Json)} {key : String} {value : Json}
    (distinct : MembersDistinctKeys members) (found : members.lookup key = some value) :
    value.DistinctKeys := by
  -- The member is the first one or stands behind it.
  induction members with
  | nil => cases found
  | cons member rest ih =>
    obtain ⟨name, content⟩ := member
    rw [MembersDistinctKeys] at distinct
    rw [lookup_cons_eq_ite] at found
    split at found
    · cases found
      exact distinct.1
    · exact ih distinct.2 found

/-- No object in a member of an object repeats a key. -/
theorem DistinctKeys.of_member? {json : Json} {key : String} {value : Json}
    (distinct : json.DistinctKeys) (found : json.member? key = some value) :
    value.DistinctKeys := by
  cases json with
  | obj members => exact .of_lookup distinct.2 found
  | _ => simp [member?] at found

/-- A key that no member has is not found. -/
theorem lookup_eq_none_of_notMem {members : List (String × Json)} {key : String}
    (absent : key ∉ members.map Prod.fst) : members.lookup key = none := by
  -- A member that was found would have the key.
  rw [List.lookup_eq_none_iff]
  intro member inside
  rw [bne_iff_ne]
  rintro rfl
  exact absent (List.mem_map_of_mem inside)

/-- What stands under a key in the value is the value of what stands there in the tree. -/
theorem lookup_sortedMembers {members : List (String × Json)}
    (distinct : (members.map Prod.fst).Nodup) (key : String) :
    (sortedMembers members).lookup key = (members.lookup key).map sorted := by
  -- Each key is entered among those of the members behind it, where it is new.
  induction members generalizing key with
  | nil => rfl
  | cons member rest ih =>
    obtain ⟨name, content⟩ := member
    rw [List.map_cons, List.nodup_cons] at distinct
    have ih := ih distinct.2
    have new : (sortedMembers rest).lookup name = none := by
      rw [ih, lookup_eq_none_of_notMem distinct.1]
      rfl
    rw [sortedMembers, lookup_enter _ new, ih, lookup_cons_eq_ite]
    by_cases same : key = name
    · rw [if_pos same, if_pos same, Option.map_some]
    · rw [if_neg same, if_neg same]

/-- A member is found in objects only. -/
theorem exists_of_member?_eq_some {json value : Json} {key : String}
    (found : json.member? key = some value) :
    ∃ members, json = .obj members ∧ members.lookup key = some value := by
  cases json with
  | obj members => exact ⟨members, rfl, found⟩
  | _ => cases found

/-- A member of the value is the value of the member. -/
theorem member?_sorted {json : Json} (distinct : json.DistinctKeys) (key : String) :
    json.sorted.member? key = (json.member? key).map sorted := by
  cases json with
  | obj members => exact lookup_sortedMembers distinct.1 key
  | _ => simp [sorted, member?]

/-- Sorting leaves texts alone. -/
@[simp] theorem text?_sorted (json : Json) : json.sorted.text? = json.text? := by
  cases json <;> simp [sorted, text?]

end Json

end Warrant
