import Mathlib.Data.List.Nodup
import Mathlib.Data.List.Perm.Basic
import Mathlib.Data.String.Basic
import Warrant.Json.Value
import Warrant.Proofs.Json.Entries

/-! Documents that say the same, in whatever order their members stand and however their texts are
spelled, are those that have the same value. -/

namespace Warrant

namespace Document

mutual

/-- Documents that say the same: the members of a record may stand in another order, and numerals
may be spelled in another way. -/
def Alike : Document → Document → Prop
  | .null, .null => True
  | .bool a, .bool b => a = b
  | .number a, .number b => Numeral.value? a = Numeral.value? b
  | .string a, .string b => a = b
  | .list a, .list b => ItemsAlike a b
  | .record a, .record b => ∃ c, c.Perm b ∧ MembersAlike a c
  | _, _ => False

/-- As many items on either side, which say the same one by one. -/
def ItemsAlike : List Document → List Document → Prop
  | [], [] => True
  | a :: as, b :: bs => a.Alike b ∧ ItemsAlike as bs
  | _, _ => False

/-- As many members on either side, which say the same under the same keys one by one. -/
def MembersAlike : List (Option String × Document) → List (Option String × Document) → Prop
  | [], [] => True
  | (key, a) :: as, (other, b) :: bs => key = other ∧ a.Alike b ∧ MembersAlike as bs
  | _, _ => False

end

mutual

/-- No record in a document repeats a key. -/
def DistinctKeys : Document → Prop
  | .list items => ItemsDistinctKeys items
  | .record members => (members.map Prod.fst).Nodup ∧ MembersDistinctKeys members
  | _ => True

/-- No record in the items repeats a key. -/
def ItemsDistinctKeys : List Document → Prop
  | [] => True
  | item :: rest => item.DistinctKeys ∧ ItemsDistinctKeys rest

/-- No record in the values of members repeats a key. -/
def MembersDistinctKeys : List (Option String × Document) → Prop
  | [] => True
  | (_, value) :: rest => value.DistinctKeys ∧ MembersDistinctKeys rest

end

/-- Items repeat no keys when none of them does. -/
theorem itemsDistinctKeys_iff (items : List Document) :
    ItemsDistinctKeys items ↔ ∀ item ∈ items, item.DistinctKeys := by
  induction items with
  | nil => simp [ItemsDistinctKeys]
  | cons item rest ih => simp [ItemsDistinctKeys, ih]

/-- The values of members repeat no keys when none of them does. -/
theorem membersDistinctKeys_iff (members : List (Option String × Document)) :
    MembersDistinctKeys members ↔ ∀ member ∈ members, member.2.DistinctKeys := by
  induction members with
  | nil => simp [MembersDistinctKeys]
  | cons member rest ih => simp [MembersDistinctKeys, ih]

/-- A property holds of all documents when a document has it as soon as all its items and members
do. -/
@[elab_as_elim] theorem induction {motive : Document → Prop} (null : motive .null)
    (bool : ∀ value, motive (.bool value)) (number : ∀ numeral, motive (.number numeral))
    (string : ∀ text, motive (.string text))
    (list : ∀ items, (∀ item ∈ items, motive item) → motive (.list items))
    (record : ∀ members, (∀ member ∈ members, motive member.2) → motive (.record members)) :
    ∀ document, motive document := by
  -- The recursor of the nested type speaks of items, of members and of one member besides.
  refine @Document.rec motive (fun items => ∀ item ∈ items, motive item)
    (fun members => ∀ member ∈ members, motive member.2) (fun member => motive member.2)
    null bool number string list record ?_ ?_ ?_ ?_ ?_
  · exact fun _ member => absurd member List.not_mem_nil
  · exact fun item rest first behind => List.forall_mem_cons.mpr ⟨first, behind⟩
  · exact fun _ member => absurd member List.not_mem_nil
  · exact fun member rest first behind => List.forall_mem_cons.mpr ⟨first, behind⟩
  · exact fun _ _ value => value

/-- Items have values when each of them has one. -/
theorem valueItems?_eq_some_iff {levels : Nat} {items : List Document} {values : List Json} :
    valueItems? levels items = some values ↔
      List.Forall₂ (fun item value => item.value? levels = some value) items values := by
  -- By induction on the items: the first one has a value, and so have the others.
  induction items generalizing values with
  | nil => simp [valueItems?, eq_comm]
  | cons item rest ih =>
    simp only [valueItems?, Option.bind_eq_bind, Option.bind_eq_some_iff, Option.pure_def,
      Option.some.injEq, List.forall₂_cons_left_iff, ih]
    constructor
    · rintro ⟨value, first, others, behind, rfl⟩
      exact ⟨value, others, first, behind, rfl⟩
    · rintro ⟨value, others, first, behind, rfl⟩
      exact ⟨value, first, others, behind, rfl⟩

/-- A member stands for an entry of its key and its value. -/
def IsEntry (levels : Nat) (member : Option String × Document) (entry : String × Json) : Prop :=
  member.1 = some entry.1 ∧ member.2.value? levels = some entry.2

/-- Members have values when each of them stands for an entry, and then all these are entered. -/
theorem valueMembers?_eq_some_iff {levels : Nat} {members : List (Option String × Document)}
    {values : List (String × Json)} :
    valueMembers? levels members = some values ↔
      ∃ entries, List.Forall₂ (IsEntry levels) members entries ∧ enterAll entries = values := by
  -- By induction on the members: each entry is put before those behind it.
  induction members generalizing values with
  | nil => simp [valueMembers?, enterAll, eq_comm]
  | cons member rest ih =>
    obtain ⟨key, value⟩ := member
    simp only [valueMembers?, Option.bind_eq_bind, Option.bind_eq_some_iff, Option.pure_def,
      Option.some.injEq, ih]
    constructor
    · rintro ⟨name, rfl, content, found, _, ⟨entries, others, rfl⟩, rfl⟩
      exact ⟨(name, content) :: entries, .cons ⟨rfl, found⟩ others, rfl⟩
    · rintro ⟨_, listed, rfl⟩
      obtain ⟨entry, entries, ⟨named, found⟩, others, rfl⟩ := List.forall₂_cons_left_iff.mp listed
      exact ⟨entry.1, named, entry.2, found, enterAll entries, ⟨entries, others, rfl⟩, rfl⟩

/-- A list has the values of its items. -/
theorem value?_list_eq_some_iff {levels : Nat} {items : List Document} {json : Json} :
    (Document.list items).value? levels = some json ↔ ∃ inner values, levels = inner + 1 ∧
      List.Forall₂ (fun item value => item.value? inner = some value) items values ∧
      .arr values = json := by
  cases levels with
  | zero => simp [value?]
  | succ inner => simp [value?, valueItems?_eq_some_iff]

/-- A record has the entries of its members, in key order. -/
theorem value?_record_eq_some_iff {levels : Nat} {members : List (Option String × Document)}
    {json : Json} : (Document.record members).value? levels = some json ↔
      ∃ inner entries, levels = inner + 1 ∧ List.Forall₂ (IsEntry inner) members entries ∧
        .obj (enterAll entries) = json := by
  cases levels with
  | zero => simp [value?]
  | succ inner => simp [value?, valueMembers?_eq_some_iff]

/-- What a document or a value is, apart from what it holds. -/
inductive Kind where
  | null
  | bool
  | number
  | string
  | list
  | record

/-- The kind of a document. -/
def kind : Document → Kind
  | .null => .null
  | .bool _ => .bool
  | .number _ => .number
  | .string _ => .string
  | .list _ => .list
  | .record _ => .record

/-- The kind of a value. -/
def kindOf : Json → Kind
  | .null => .null
  | .bool _ => .bool
  | .int _ | .float _ => .number
  | .str _ => .string
  | .arr _ => .list
  | .obj _ => .record

/-- A document has a value of its own kind. -/
theorem kindOf_of_value? {levels : Nat} {document : Document} {json : Json}
    (value : document.value? levels = some json) : kindOf json = document.kind := by
  -- Only a numeral has values of two constructors, which are both numbers.
  cases document with
  | null | bool => cases value; rfl
  | number numeral =>
    rw [value?, Numeral.value?] at value
    split at value
    · cases value
      rfl
    · obtain ⟨_, _, rfl⟩ := Option.map_eq_some_iff.mp value
      rfl
  | string text =>
    obtain ⟨_, _, rfl⟩ := Option.map_eq_some_iff.mp value
    rfl
  | list items =>
    obtain ⟨_, _, _, _, rfl⟩ := value?_list_eq_some_iff.mp value
    rfl
  | record members =>
    obtain ⟨_, _, _, _, rfl⟩ := value?_record_eq_some_iff.mp value
    rfl

/-- Documents that say the same are of the same kind. -/
theorem Alike.kind_eq {a b : Document} (alike : a.Alike b) : a.kind = b.kind := by
  cases a <;> cases b <;> first | rfl | exact absurd alike (by simp [Alike])

/-- The keys of a record without repetitions are those of its entries, which repeat none either. -/
theorem nodup_entries {levels : Nat} {members : List (Option String × Document)}
    {entries : List (String × Json)} (listed : List.Forall₂ (IsEntry levels) members entries)
    (distinct : (members.map Prod.fst).Nodup) : (entries.map Prod.fst).Nodup := by
  -- Every key is the text of a key in the record.
  have keys : members.map Prod.fst = (entries.map Prod.fst).map some := by
    induction listed with
    | nil => rfl
    | cons entry _ ih =>
      rw [List.map_cons, List.nodup_cons] at distinct
      rw [List.map_cons, entry.1, ih distinct.2, List.map_cons, List.map_cons]
  rw [keys] at distinct
  exact List.Nodup.of_map some distinct

/-- Whether a document says the same as any other shows in their values. -/
def ShowsAlike (a : Document) : Prop :=
  ∀ {b : Document} {m n : Nat} {x y : Json}, a.DistinctKeys → b.DistinctKeys →
    a.value? m = some x → b.value? n = some y → (x = y ↔ a.Alike b)

/-- Items say the same when they have the same values. -/
theorem itemsAlike_iff {m n : Nat} {a b : List Document} {xs ys : List Json}
    (each : ∀ item ∈ a, ShowsAlike item) (left : ItemsDistinctKeys a) (right : ItemsDistinctKeys b)
    (first : List.Forall₂ (fun item value => item.value? m = some value) a xs)
    (second : List.Forall₂ (fun item value => item.value? n = some value) b ys) :
    xs = ys ↔ ItemsAlike a b := by
  -- By induction on the items and their values, side by side.
  induction first generalizing b ys with
  | nil => cases second <;> simp [ItemsAlike]
  | cons value _ ih =>
    cases second with
    | nil => simp [ItemsAlike]
    | cons other others =>
      rw [ItemsDistinctKeys] at left right
      obtain ⟨shows, behind⟩ := List.forall_mem_cons.mp each
      rw [List.cons.injEq, ItemsAlike, shows left.1 right.1 value other,
        ih behind left.2 right.2 others]

/-- Members say the same under the same keys when they stand for the same entries. -/
theorem membersAlike_iff {m n : Nat} {a b : List (Option String × Document)}
    {xs ys : List (String × Json)} (each : ∀ member ∈ a, ShowsAlike member.2)
    (left : MembersDistinctKeys a) (right : MembersDistinctKeys b)
    (first : List.Forall₂ (IsEntry m) a xs) (second : List.Forall₂ (IsEntry n) b ys) :
    xs = ys ↔ MembersAlike a b := by
  -- Entries are the same when their keys are and the values of their members are.
  induction first generalizing b ys with
  | nil => cases second <;> simp [MembersAlike]
  | cons entry _ ih =>
    cases second with
    | nil => simp [MembersAlike]
    | cons other others =>
      rw [MembersDistinctKeys] at left right
      obtain ⟨shows, behind⟩ := List.forall_mem_cons.mp each
      rw [List.cons.injEq, MembersAlike, Prod.ext_iff, shows left.1 right.1 entry.2 other.2,
        ih behind left.2 right.2 others, entry.1, other.1, Option.some.injEq, and_assoc]

/-- One list of entries is a rearrangement of another when the members are alike after one. -/
theorem perm_iff_exists_membersAlike {m n : Nat} {a b : List (Option String × Document)}
    {xs ys : List (String × Json)} (each : ∀ member ∈ a, ShowsAlike member.2)
    (left : MembersDistinctKeys a) (right : MembersDistinctKeys b)
    (first : List.Forall₂ (IsEntry m) a xs) (second : List.Forall₂ (IsEntry n) b ys) :
    xs.Perm ys ↔ ∃ c, c.Perm b ∧ MembersAlike a c := by
  -- Members and their entries can be rearranged in the same way.
  have rearranged {c : List (Option String × Document)} (same : c.Perm b) :
      MembersDistinctKeys c := by
    rw [membersDistinctKeys_iff] at right ⊢
    exact fun member inside => right member (same.mem_iff.mp inside)
  constructor
  · intro same
    obtain ⟨c, listed, again⟩ := List.perm_comp_forall₂ same second.flip
    exact ⟨c, again, (membersAlike_iff each left (rearranged again) first listed.flip).mp rfl⟩
  · rintro ⟨c, same, alike⟩
    obtain ⟨zs, listed, again⟩ := List.perm_comp_forall₂ same second
    rw [(membersAlike_iff each left (rearranged same) first listed).mpr alike]
    exact again

/-- Documents of different kinds neither have the same value nor say the same. -/
theorem iff_of_kind_ne {a b : Document} {m n : Nat} {x y : Json} (different : a.kind ≠ b.kind)
    (first : a.value? m = some x) (second : b.value? n = some y) : x = y ↔ a.Alike b := by
  refine iff_of_false (fun same => different ?_) fun alike => different alike.kind_eq
  rw [← kindOf_of_value? first, same, kindOf_of_value? second]

/-- Documents without repeated keys say the same exactly when they have the same value. -/
theorem showsAlike (a : Document) : ShowsAlike a := by
  -- By induction on the first document, to which only documents of its own kind are compared.
  induction a using induction with
  | null =>
    intro b m n x y _ _ first second
    cases b with
    | null =>
      cases first
      cases second
      simp [Alike]
    -- Constants are alike when they are the same, and they have themselves for values.
    | _ => exact iff_of_kind_ne nofun first second
  | bool value =>
    intro b m n x y _ _ first second
    cases b with
    | bool other =>
      cases first
      cases second
      simp [Alike]
    | _ => exact iff_of_kind_ne nofun first second
  | number numeral =>
    intro b m n x y _ _ first second
    cases b with
    | number other =>
      -- Numerals are alike when they have one value, whatever their spelling.
      rw [value?] at first second
      rw [Alike, first, second, Option.some.injEq]
    | _ => exact iff_of_kind_ne nofun first second
  | string text =>
    intro b m n x y _ _ first second
    cases b with
    | string other =>
      -- Of texts that have a value only the characters count.
      obtain ⟨_, rfl, rfl⟩ := Option.map_eq_some_iff.mp first
      obtain ⟨_, rfl, rfl⟩ := Option.map_eq_some_iff.mp second
      rw [Alike, Json.str.injEq, Option.some.injEq]
    | _ => exact iff_of_kind_ne nofun first second
  | list items each =>
    intro b m n x y left right first second
    cases b with
    | list others =>
      -- Lists are compared in their order, item by item.
      obtain ⟨_, xs, rfl, valued, rfl⟩ := value?_list_eq_some_iff.mp first
      obtain ⟨_, ys, rfl, otherValued, rfl⟩ := value?_list_eq_some_iff.mp second
      rw [DistinctKeys] at left right
      rw [Json.arr.injEq, Alike, itemsAlike_iff each left right valued otherValued]
    | _ => exact iff_of_kind_ne nofun first second
  | record members each =>
    intro b m n x y left right first second
    cases b with
    | record others =>
      -- Objects are compared member by member once the keys have been put in order, with no key
      -- repeated.
      obtain ⟨_, xs, rfl, listed, rfl⟩ := value?_record_eq_some_iff.mp first
      obtain ⟨_, ys, rfl, otherListed, rfl⟩ := value?_record_eq_some_iff.mp second
      rw [DistinctKeys] at left right
      rw [Json.obj.injEq, Alike, enterAll_eq_iff (nodup_entries listed left.1)
        (nodup_entries otherListed right.1)]
      exact perm_iff_exists_membersAlike each left.2 right.2 listed otherListed
    | _ => exact iff_of_kind_ne nofun first second

end Document

end Warrant
