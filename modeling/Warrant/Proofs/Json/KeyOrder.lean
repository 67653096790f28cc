import Mathlib.Data.List.Sort
import Warrant.Proofs.Json.Quotation
import Warrant.Proofs.Json.Trees

/-! The key order of RFC 8785, and the text that a value without numbers has in it. -/

namespace Warrant

namespace Text

/-- The code units of a text in UTF-16, of which characters beyond the first plane take two. -/
def codeUnits (text : String) : List Nat :=
  text.toList.flatMap fun c =>
    if c.toNat < 0x10000 then [c.toNat]
    else [0xD800 + (c.toNat - 0x10000) / 0x400, 0xDC00 + (c.toNat - 0x10000) % 0x400]

end Text

namespace Json

/-- The order of members in RFC 8785: by the code units of their keys, as they are without quotes
and escapes. -/
def keysInOrder (a b : String × Json) : Prop :=
  ¬ Text.codeUnits b.1 < Text.codeUnits a.1

instance : DecidableRel keysInOrder :=
  fun a b => inferInstanceAs (Decidable (¬ Text.codeUnits b.1 < Text.codeUnits a.1))

/-- Only the keys of members decide on their order. -/
theorem keysInOrder_iff (a b : String) (x y : Json) :
    keysInOrder (a, x) (b, y) ↔ ¬ Text.codeUnits b < Text.codeUnits a :=
  Iff.rfl

mutual

/-- The value with the members of every object, at any depth, in ascending order of their keys.
Items keep their order. -/
def inKeyOrder : Json → Json
  | .arr items => .arr (itemsInKeyOrder items)
  | .obj members => .obj ((membersInKeyOrder members).insertionSort keysInOrder)
  | leaf => leaf

/-- The items, each with its own members in order. -/
def itemsInKeyOrder : List Json → List Json
  | [] => []
  | item :: rest => item.inKeyOrder :: itemsInKeyOrder rest

/-- The members where they stand, each with the members of its value in order. -/
def membersInKeyOrder : List (String × Json) → List (String × Json)
  | [] => []
  | (key, value) :: rest => (key, value.inKeyOrder) :: membersInKeyOrder rest

end

/-- Items are ordered one by one. -/
theorem itemsInKeyOrder_eq_map (items : List Json) :
    itemsInKeyOrder items = items.map inKeyOrder := by
  induction items with
  | nil => simp [itemsInKeyOrder]
  | cons item rest ih => simp [itemsInKeyOrder, ih]

/-- What stands in members is ordered one by one. -/
theorem membersInKeyOrder_eq_map (members : List (String × Json)) :
    membersInKeyOrder members = members.map (Prod.map id inKeyOrder) := by
  -- The walk goes from member to member, and leaves the keys as they are.
  induction members with
  | nil => rw [membersInKeyOrder, List.map_nil]
  | cons member rest ih =>
    rw [membersInKeyOrder, ih]
    rfl

/-- The characters that RFC 8785 writes with a mark behind a backslash, and their marks. -/
def marks : List (Char × Char) :=
  [(.ofNat 8, 'b'), (.ofNat 9, 't'), (.ofNat 10, 'n'), (.ofNat 12, 'f'), (.ofNat 13, 'r'),
    ('"', '"'), ('\\', '\\')]

/-- A character in a string of RFC 8785: with its mark, a control without one by the four small
hexadecimal digits of its code, and everything else as it is. -/
def spellChar (c : Char) : List Char :=
  match marks.lookup c with
  | some mark => ['\\', mark]
  | none =>
    if c.toNat < 0x20 then
      '\\' :: 'u' :: [3, 2, 1, 0].map fun place => (c.toNat / Nat.pow 16 place % 16).digitChar
    else [c]

/-- A string in RFC 8785. -/
def spellText (text : String) : List Char :=
  '"' :: text.toList.flatMap spellChar ++ ['"']

mutual

/-- The text that RFC 8785 gives to a value of strings, lists and objects whose members are in
order: there are no blanks between its tokens. -/
def spell : Json → List Char
  | .str text => spellText text
  | .arr items => '[' :: [','].intercalate (spellItems items) ++ [']']
  | .obj members => '\x7b' :: [','].intercalate (spellMembers members) ++ ['\x7d']
  | leaf => writeLeaf leaf

/-- The texts of items. -/
def spellItems : List Json → List (List Char)
  | [] => []
  | item :: rest => item.spell :: spellItems rest

/-- The texts of members. -/
def spellMembers : List (String × Json) → List (List Char)
  | [] => []
  | (key, value) :: rest => (spellText key ++ ':' :: value.spell) :: spellMembers rest

end

/-- Every character is escaped in the way of RFC 8785. -/
theorem escape_eq_spellChar (c : Char) : escape c = spellChar c := by
  -- The characters with a mark all have a small code, so that their codes can be tried.
  have named {n : Nat} (same : c.toNat = n) : c = Char.ofNat n := by rw [← same, Char.ofNat_toNat]
  by_cases small : c.toNat < 0x5d
  · have each : ∀ n < 0x5d, escape (Char.ofNat n) = spellChar (Char.ofNat n) := by decide
    rw [named rfl]
    exact each _ small
  · -- Beyond the marks a character stands for itself on both sides.
    have distant : marks.lookup c = none := by
      rw [List.lookup_eq_none_iff]
      intro entry member
      have near : ∀ entry ∈ marks, entry.1.toNat < 0x5d := by decide
      rw [bne_iff_ne]
      rintro rfl
      exact small (near entry member)
    have quote : c ≠ '"' := by rintro rfl; exact small (by decide)
    have backslash : c ≠ '\\' := by rintro rfl; exact small (by decide)
    rw [escape_of_visible (by omega) quote backslash, spellChar, distant]
    exact (if_neg (by omega)).symm

/-- Strings are written in the way of RFC 8785. -/
theorem writeText_eq_spellText (text : String) : writeText text = spellText text := by
  rw [writeText, spellText, List.flatMap_congr fun c _ => escape_eq_spellChar c]

mutual

/-- The compact text is that of RFC 8785. -/
theorem write_eq_spell : ∀ json : Json, json.write = json.spell
  -- Only strings are spelled in a way of their own.
  | .arr items => by rw [write, spell, writeItems_eq_spellItems items]
  | .obj members => by rw [write, spell, writeMembers_eq_spellMembers members]
  | .str text => by rw [write, spell, writeLeaf, writeText_eq_spellText] <;> simp
  | .null | .bool _ | .int _ | .float _ => by simp [write, spell]

/-- Compact texts of items have commas between them. -/
theorem writeItems_eq_spellItems : ∀ items : List Json,
    writeItems items = [','].intercalate (spellItems items)
  -- A comma stands behind every item but the last.
  | [] => by simp [writeItems, spellItems]
  | [item] => by simp [writeItems, spellItems, write_eq_spell item]
  | item :: next :: rest => by
    have others := writeItems_eq_spellItems (next :: rest)
    rw [writeItems, write_eq_spell item, others] <;> simp [spellItems]

/-- Compact texts of members have commas between them. -/
theorem writeMembers_eq_spellMembers : ∀ members : List (String × Json),
    writeMembers members = [','].intercalate (spellMembers members)
  -- A comma stands behind every member but the last.
  | [] => by simp [writeMembers, spellMembers]
  | [(key, value)] => by
    simp [writeMembers, spellMembers, write_eq_spell value, writeText_eq_spellText]
  | (key, value) :: next :: rest => by
    have others := writeMembers_eq_spellMembers (next :: rest)
    rw [writeMembers, write_eq_spell value, others, writeText_eq_spellText] <;>
      simp [spellMembers]

end

/-- The reference text of a value of strings, lists and objects: its text in RFC 8785 with the
members of every object in ascending order of their keys. -/
def referenceText (json : Json) : List Char :=
  json.inKeyOrder.spell

/-- The reference text is the compact text in key order. -/
theorem referenceText_eq_write (json : Json) : json.referenceText = json.inKeyOrder.write := by
  rw [referenceText, write_eq_spell]

mutual

/-- The members of every object, at any depth, stand in ascending order of their keys. -/
def KeysAscend : Json → Prop
  | .arr items => ItemsAscend items
  | .obj members => members.Pairwise keysInOrder ∧ MembersAscend members
  | _ => True

/-- The keys in every item ascend. -/
def ItemsAscend : List Json → Prop
  | [] => True
  | item :: rest => item.KeysAscend ∧ ItemsAscend rest

/-- The keys in the value of every member ascend. -/
def MembersAscend : List (String × Json) → Prop
  | [] => True
  | (_, value) :: rest => value.KeysAscend ∧ MembersAscend rest

end

/-- The keys in items ascend when they do in each of them. -/
theorem itemsAscend_iff (items : List Json) :
    ItemsAscend items ↔ ∀ item ∈ items, item.KeysAscend := by
  induction items with
  | nil => simp [ItemsAscend]
  | cons item rest ih => simp [ItemsAscend, ih]

/-- Members ascend when each of them does, in whatever order they stand. -/
theorem membersAscend_iff (members : List (String × Json)) :
    MembersAscend members ↔ ∀ member ∈ members, member.2.KeysAscend := by
  induction members with
  | nil => simp [MembersAscend]
  | cons member rest ih => simp [MembersAscend, ih]

instance : Std.Total keysInOrder where
  total a b := by
    -- Two lists of code units cannot each be less than the other.
    by_cases less : Text.codeUnits b.1 < Text.codeUnits a.1
    · exact .inr (List.lt_asymm less)
    · exact .inl less

instance : IsTrans (String × Json) keysInOrder where
  trans a b c first second := by
    -- Code units that are not greater are less or equal.
    simp only [keysInOrder, List.not_lt] at first second ⊢
    exact List.le_trans first second

/-- Every member in key order comes from a member. -/
theorem forall_mem_inKeyOrder {members : List (String × Json)} {P : Json → Prop}
    (each : ∀ member ∈ members, P member.2.inKeyOrder) :
    ∀ member ∈ (membersInKeyOrder members).insertionSort keysInOrder, P member.2 := by
  -- Sorting moves members only.
  intro member inside
  rw [List.mem_insertionSort, membersInKeyOrder_eq_map] at inside
  obtain ⟨original, found, rfl⟩ := List.mem_map.mp inside
  exact each original found

/-- In a value in key order the keys ascend. -/
theorem keysAscend_inKeyOrder (json : Json) : json.inKeyOrder.KeysAscend := by
  -- By induction on the tree: the members are sorted when their values are in order.
  induction json using induction with
  | null | bool _ | int _ | float _ | str _ => simp [inKeyOrder, KeysAscend]
  | arr items each =>
    rw [inKeyOrder, KeysAscend, itemsAscend_iff, itemsInKeyOrder_eq_map]
    exact List.forall_mem_map.mpr each
  | obj members each =>
    rw [inKeyOrder, KeysAscend, membersAscend_iff]
    exact ⟨List.pairwise_insertionSort keysInOrder _, forall_mem_inKeyOrder each⟩

/-- Ordering the members brings no float in. -/
theorem firstFloat?_inKeyOrder {json : Json} (noFloat : json.firstFloat? = none) :
    json.inKeyOrder.firstFloat? = none := by
  -- Sorting moves members, and a walk over all of them does not depend on their order.
  induction json using induction with
  | null | bool _ | int _ | float _ | str _ => simpa [inKeyOrder] using noFloat
  | arr items each =>
    rw [firstFloat?, firstFloatItem?_eq_none_iff] at noFloat
    rw [inKeyOrder, firstFloat?, firstFloatItem?_eq_none_iff, itemsInKeyOrder_eq_map]
    exact List.forall_mem_map.mpr fun item inside => each item inside (noFloat item inside)
  | obj members each =>
    rw [firstFloat?, firstFloatMember?_eq_none_iff] at noFloat
    rw [inKeyOrder, firstFloat?, firstFloatMember?_eq_none_iff]
    exact forall_mem_inKeyOrder (P := fun value => value.firstFloat? = none)
      fun member inside => each member inside (noFloat member inside)

end Json

end Warrant
