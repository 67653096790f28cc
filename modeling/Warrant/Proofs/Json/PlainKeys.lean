import Warrant.Proofs.Json.KeyOrder
import Warrant.Proofs.Json.WrittenOrder

/-! The canonical text of a value is its text in the key order of RFC 8785, as long as the written
keys are ordered like the keys themselves. -/

namespace Warrant.Json

/-- A key that is written as it stands, in characters that come after the quote and take one code
unit each. -/
def isPlainKey (key : String) : Bool :=
  key.toList.all fun c => 0x22 < c.toNat && c.toNat < 0x10000 && c ≠ '\\'

mutual

/-- All keys in a value are plain, and no object repeats one. -/
def HasPlainKeys : Json → Prop
  | .arr items => ItemsHavePlainKeys items
  | .obj members =>
    (members.map Prod.fst).Nodup ∧ (∀ key ∈ members.map Prod.fst, isPlainKey key = true) ∧
      MembersHavePlainKeys members
  | _ => True

/-- All keys in the items are plain. -/
def ItemsHavePlainKeys : List Json → Prop
  | [] => True
  | item :: rest => item.HasPlainKeys ∧ ItemsHavePlainKeys rest

/-- All keys in the values of members are plain. -/
def MembersHavePlainKeys : List (String × Json) → Prop
  | [] => True
  | (_, value) :: rest => value.HasPlainKeys ∧ MembersHavePlainKeys rest

end

/-- Items have plain keys when each of them has. -/
theorem itemsHavePlainKeys_iff (items : List Json) :
    ItemsHavePlainKeys items ↔ ∀ item ∈ items, item.HasPlainKeys := by
  induction items with
  | nil => simp [ItemsHavePlainKeys]
  | cons item rest ih => simp [ItemsHavePlainKeys, ih]

/-- The values of members have plain keys when each of them has. -/
theorem membersHavePlainKeys_iff (members : List (String × Json)) :
    MembersHavePlainKeys members ↔ ∀ member ∈ members, member.2.HasPlainKeys := by
  induction members with
  | nil => simp [MembersHavePlainKeys]
  | cons member rest ih => simp [MembersHavePlainKeys, ih]

/-- A value with plain keys repeats none. -/
theorem HasPlainKeys.distinctKeys {json : Json} (plain : json.HasPlainKeys) :
    json.DistinctKeys := by
  -- Plain keys are distinct in every object by definition.
  induction json using induction with
  | null | bool _ | int _ | float _ | str _ => simp [DistinctKeys]
  | arr items each =>
    rw [HasPlainKeys, itemsHavePlainKeys_iff] at plain
    rw [DistinctKeys, itemsDistinctKeys_iff]
    exact fun item inside => each item inside (plain item inside)
  | obj members each =>
    rw [HasPlainKeys, membersHavePlainKeys_iff] at plain
    rw [DistinctKeys, membersDistinctKeys_iff]
    exact ⟨plain.1, fun member inside => each member inside (plain.2.2 member inside)⟩

/-- What makes a character of a key plain. -/
theorem of_isPlainKey {key : String} (plain : isPlainKey key = true) {c : Char}
    (member : c ∈ key.toList) : 0x22 < c.toNat ∧ c.toNat < 0x10000 ∧ c ≠ '\\' := by
  have each := List.all_eq_true.1 plain c member
  simpa [and_assoc] using each

/-- A plain key is written between quotes without an escape. -/
theorem writeText_of_isPlainKey {key : String} (plain : isPlainKey key = true) :
    writeText key = '"' :: (key.toList ++ ['"']) := by
  -- None of the characters that have an escape is plain.
  have bare : ∀ c ∈ key.toList, escape c = [c] := by
    intro c member
    obtain ⟨above, _, notBackslash⟩ := of_isPlainKey plain member
    exact escape_of_visible (by omega) (by rintro rfl; exact absurd above (by decide)) notBackslash
  rw [writeText, List.flatMap_congr bare, List.flatMap_singleton', List.cons_append]

/-- The code units of a plain key are its characters. -/
theorem codeUnits_of_isPlainKey {key : String} (plain : isPlainKey key = true) :
    Text.codeUnits key = key.toList.map Char.toNat := by
  -- Every plain character lies in the first plane.
  have single : ∀ c ∈ key.toList, (if c.toNat < 0x10000 then [c.toNat]
      else [0xD800 + (c.toNat - 0x10000) / 0x400, 0xDC00 + (c.toNat - 0x10000) % 0x400]) =
      [c.toNat] := by
    intro c member
    rw [if_pos (of_isPlainKey plain member).2.1]
  rw [Text.codeUnits, List.flatMap_congr single, List.map_eq_flatMap]

/-- Closing quotes do not change the order of texts whose characters come after the quote. -/
theorem append_quote_lt_iff : ∀ {a b : List Char}, (∀ c ∈ a, 0x22 < c.toNat) →
    (∀ c ∈ b, 0x22 < c.toNat) →
    (a ++ ['"'] < b ++ ['"'] ↔ a.map Char.toNat < b.map Char.toNat)
  -- Where one text ends, its closing quote comes before the next character of the other.
  | [], [], _, _ => by simp
  | [], d :: b, _, right => by
    have before : '"' < d := right d (by simp)
    simp [List.cons_lt_cons_iff, before]
  | c :: a, [], left, _ => by
    have after : 0x22 < c.toNat := left c (by simp)
    have notBefore : ¬ c < '"' := Nat.not_lt.2 (Nat.le_of_lt after)
    have different : c ≠ '"' := by rintro rfl; exact absurd after (by decide)
    simp [List.cons_lt_cons_iff, notBefore, different]
  | c :: a, d :: b, left, right => by
    have rest := append_quote_lt_iff (a := a) (b := b) (fun x member => left x (by simp [member]))
      (fun x member => right x (by simp [member]))
    have first : c < d ↔ c.toNat < d.toNat := Iff.rfl
    simp only [List.cons_append, List.map_cons, List.cons_lt_cons_iff, rest, first, Char.toNat_inj]

/-- Plain keys are written in the order of their code units. -/
theorem writeText_lt_iff {a b : String} (left : isPlainKey a = true) (right : isPlainKey b = true) :
    writeText a < writeText b ↔ Text.codeUnits a < Text.codeUnits b := by
  -- Both open with a quote, and between the quotes stand the keys themselves.
  rw [writeText_of_isPlainKey left, writeText_of_isPlainKey right, codeUnits_of_isPlainKey left,
    codeUnits_of_isPlainKey right, List.cons_lt_cons_iff]
  simp only [Char.lt_irrefl, false_or, true_and]
  exact append_quote_lt_iff (fun c member => (of_isPlainKey left member).1)
    (fun c member => (of_isPlainKey right member).1)

/-- Plain keys with the same code units are the same. -/
theorem eq_of_codeUnits_eq {a b : String} (left : isPlainKey a = true)
    (right : isPlainKey b = true) (same : Text.codeUnits a = Text.codeUnits b) : a = b := by
  -- The code units are the numbers of the characters.
  rw [codeUnits_of_isPlainKey left, codeUnits_of_isPlainKey right] at same
  exact String.toList_injective
    (List.map_injective_iff.2 (fun _ _ equal => Char.toNat_inj.1 equal) same)

/-- Members with plain keys stand in key order when they stand in written order. -/
theorem pairwise_writtenEntries {members : List (String × Json)}
    (plain : ∀ key ∈ members.map Prod.fst, isPlainKey key = true) :
    ((writtenEntries members).map Prod.snd).Pairwise keysInOrder := by
  -- Entries are in the order of their written keys, which is that of the plain keys.
  have ascending : Ascending (writtenEntries members) := by
    rw [writtenEntries_eq_enterAll]
    exact ascending_enterAll _
  refine List.pairwise_map.mpr (ascending.imp_of_mem fun {a b} left right less => ?_)
  obtain ⟨first, insideFirst, rfl⟩ := exists_of_mem_writtenEntries left
  obtain ⟨second, insideSecond, rfl⟩ := exists_of_mem_writtenEntries right
  have plainFirst := plain first.1 (List.mem_map_of_mem insideFirst)
  have plainSecond := plain second.1 (List.mem_map_of_mem insideSecond)
  exact List.lt_asymm ((writeText_lt_iff plainFirst plainSecond).mp less)

/-- Members with distinct plain keys stand in written order as they do in key order. -/
theorem map_snd_writtenEntries {members : List (String × Json)}
    (distinct : (members.map Prod.fst).Nodup)
    (plain : ∀ key ∈ members.map Prod.fst, isPlainKey key = true)
    (each : ∀ member ∈ members, member.2.inWrittenOrder = member.2.inKeyOrder) :
    (writtenEntries members).map Prod.snd =
      (membersInKeyOrder members).insertionSort keysInOrder := by
  -- Both are rearrangements of the same members, and both are in key order.
  have same : members.map (Prod.map id inWrittenOrder) = membersInKeyOrder members := by
    rw [membersInKeyOrder_eq_map]
    exact List.map_congr_left fun member inside => congrArg (Prod.mk member.1) (each member inside)
  have keys : (membersInKeyOrder members).map Prod.fst = members.map Prod.fst := by
    rw [membersInKeyOrder_eq_map, List.map_map]
    rfl
  have written := written_perm distinct
  rw [same] at written
  have sorting := List.perm_insertionSort keysInOrder (membersInKeyOrder members)
  refine (written.trans sorting.symm).eq_of_pairwise (fun a b left right less greater => ?_)
    (pairwise_writtenEntries plain) (List.pairwise_insertionSort keysInOrder _)
  have left := written.mem_iff.mp left
  have right := sorting.mem_iff.mp right
  -- Members that are in order both ways have the same key, and no key is repeated.
  refine List.inj_on_of_nodup_map (keys ▸ distinct) left right ?_
  have plainKey {member : String × Json} (inside : member ∈ membersInKeyOrder members) :
      isPlainKey member.1 = true :=
    plain member.1 (keys ▸ List.mem_map_of_mem inside)
  refine eq_of_codeUnits_eq (plainKey left) (plainKey right) ?_
  exact List.le_antisymm (List.not_lt.mp less) (List.not_lt.mp greater)

/-- A value with plain keys stands in written order as it does in key order. -/
theorem inWrittenOrder_eq_inKeyOrder {json : Json} (plain : json.HasPlainKeys) :
    json.inWrittenOrder = json.inKeyOrder := by
  -- By induction on the tree, with the same values in either order.
  induction json using induction with
  | null | bool _ | int _ | float _ | str _ => simp [inWrittenOrder, inKeyOrder]
  | arr items each =>
    rw [HasPlainKeys, itemsHavePlainKeys_iff] at plain
    rw [inWrittenOrder, inKeyOrder, itemsInWrittenOrder_eq_map, itemsInKeyOrder_eq_map,
      List.map_congr_left fun item inside => each item inside (plain item inside)]
  | obj members each =>
    rw [HasPlainKeys, membersHavePlainKeys_iff] at plain
    rw [inWrittenOrder, inKeyOrder, map_snd_writtenEntries plain.1 plain.2.1
      fun member inside => each member inside (plain.2.2 member inside)]

/-- The canonical text of a value with plain keys is its text in key order. -/
theorem canonicalText_eq_referenceText {json : Json} (plain : json.HasPlainKeys) :
    json.canonicalText = json.referenceText := by
  rw [canonicalText_eq_write, referenceText_eq_write, inWrittenOrder_eq_inKeyOrder plain]

/-- Values with plain keys and without floats that have the same canonical text are the same in key
order. -/
theorem inKeyOrder_eq_of_canonicalText_eq {a b : Json}
    (left : a.HasPlainKeys ∧ a.firstFloat? = none) (right : b.HasPlainKeys ∧ b.firstFloat? = none)
    (same : a.canonicalText = b.canonicalText) : a.inKeyOrder = b.inKeyOrder := by
  -- Both canonical texts are compact texts, which are read back.
  rw [canonicalText_eq_referenceText left.1, canonicalText_eq_referenceText right.1,
    referenceText_eq_write, referenceText_eq_write] at same
  exact write_injective (firstFloat?_inKeyOrder left.2) (firstFloat?_inKeyOrder right.2) same

end Warrant.Json
