import Mathlib.Data.List.Nodup
import Mathlib.Data.String.Basic
import Warrant.Json.Canonical
import Warrant.Proofs.Json.DocumentValue
import Warrant.Proofs.Json.Sorted

/-! The canonical text of a tree is the compact text of a tree with the same value: the one whose
members stand in the order of their written keys. -/

namespace Warrant.Json

mutual

/-- The tree with the members of every object, at any depth, in the order of their written keys.
Items keep their order. -/
def inWrittenOrder : Json → Json
  | .arr items => .arr (itemsInWrittenOrder items)
  | .obj members => .obj ((writtenEntries members).map Prod.snd)
  | leaf => leaf

/-- The items, each with its own members in order. -/
def itemsInWrittenOrder : List Json → List Json
  | [] => []
  | item :: rest => item.inWrittenOrder :: itemsInWrittenOrder rest

/-- The members, each with the members of its value in order, behind their written keys and in the
order of these. -/
def writtenEntries : List (String × Json) → List (List Char × String × Json)
  | [] => []
  | (key, value) :: rest =>
    enter (writeText key) (key, value.inWrittenOrder) (writtenEntries rest)

end

/-- A member with the members of its value in order, behind its written key. -/
def writtenEntry (member : String × Json) : List Char × String × Json :=
  (writeText member.1, member.1, member.2.inWrittenOrder)

/-- Items are ordered one by one. -/
theorem itemsInWrittenOrder_eq_map (items : List Json) :
    itemsInWrittenOrder items = items.map inWrittenOrder := by
  induction items with
  | nil => simp [itemsInWrittenOrder]
  | cons item rest ih => simp [itemsInWrittenOrder, ih]

/-- Members are entered behind their written keys. -/
theorem writtenEntries_eq_enterAll (members : List (String × Json)) :
    writtenEntries members = enterAll (members.map writtenEntry) := by
  induction members with
  | nil => simp [writtenEntries, enterAll]
  | cons member rest ih => rw [writtenEntries, ih]; rfl

/-- Every entry comes from a member. -/
theorem exists_of_mem_writtenEntries {members : List (String × Json)}
    {entry : List Char × String × Json} (listed : entry ∈ writtenEntries members) :
    ∃ member ∈ members, entry = writtenEntry member := by
  rw [writtenEntries_eq_enterAll] at listed
  obtain ⟨member, inside, rfl⟩ := List.mem_map.mp (mem_enterAll listed)
  exact ⟨member, inside, rfl⟩

/-- Every member in written order comes from a member. -/
theorem forall_mem_written {members : List (String × Json)} {P : Json → Prop}
    (each : ∀ member ∈ members, P member.2.inWrittenOrder) :
    ∀ member ∈ (writtenEntries members).map Prod.snd, P member.2 := by
  -- Each of them is in an entry that was made of a member.
  intro written listed
  obtain ⟨entry, inside, rfl⟩ := List.mem_map.mp listed
  obtain ⟨member, found, rfl⟩ := exists_of_mem_writtenEntries inside
  exact each member found

/-- The written forms of members. -/
def writtenMembers (members : List (String × Json)) : List (List Char × List Char) :=
  members.map fun member => (writeText member.1, member.2.write)

/-- Joined with commas, the written forms are the text of the members. -/
theorem joinMembers_writtenMembers (members : List (String × Json)) :
    joinMembers (writtenMembers members) = writeMembers members := by
  -- Both put a comma behind every member but the last.
  induction members with
  | nil => simp [writtenMembers, joinMembers, writeMembers]
  | cons member rest ih =>
    obtain ⟨key, value⟩ := member
    cases rest with
    | nil => simp [writtenMembers, joinMembers, writeMembers]
    | cons next rest =>
      simp only [writtenMembers, List.map_cons] at ih ⊢
      simp [joinMembers, writeMembers, ih]

/-- Entries with the texts of their values are the written forms of the members in them. -/
theorem map_writtenEntries (members : List (String × Json)) :
    (writtenEntries members).map (Prod.map id fun member => member.2.write) =
      writtenMembers ((writtenEntries members).map Prod.snd) := by
  -- Every entry stands behind the written key of its member.
  rw [writtenMembers, List.map_map]
  refine List.map_congr_left fun entry listed => ?_
  obtain ⟨member, _, rfl⟩ := exists_of_mem_writtenEntries listed
  rfl

/-- The canonical text of items is their compact text in written order, if that holds of each. -/
theorem canonicalItems_eq_writeItems {items : List Json}
    (each : ∀ item ∈ items, item.canonicalText = item.inWrittenOrder.write) :
    canonicalItems items = writeItems (itemsInWrittenOrder items) := by
  -- Both put a comma behind every item but the last.
  induction items with
  | nil => simp [canonicalItems, itemsInWrittenOrder, writeItems]
  | cons item rest ih =>
    obtain ⟨first, behind⟩ := List.forall_mem_cons.mp each
    cases rest with
    | nil => simp [canonicalItems, itemsInWrittenOrder, writeItems, first]
    | cons next rest =>
      have others := ih behind
      simp only [itemsInWrittenOrder] at others ⊢
      rw [canonicalItems, writeItems, first, others] <;> simp

/-- The canonical texts of members are their written forms in order, if that holds of each. -/
theorem canonicalMembers_eq_writtenMembers {members : List (String × Json)}
    (each : ∀ member ∈ members, member.2.canonicalText = member.2.inWrittenOrder.write) :
    canonicalMembers members = writtenMembers ((writtenEntries members).map Prod.snd) := by
  -- The texts are taken before the members are entered, or afterwards.
  rw [← map_writtenEntries]
  induction members with
  | nil => simp [canonicalMembers, writtenEntries]
  | cons member rest ih =>
    obtain ⟨first, behind⟩ := List.forall_mem_cons.mp each
    rw [canonicalMembers, writtenEntries, ih behind, first, ← enter_map]

/-- The canonical text is the compact text in written order. -/
theorem canonicalText_eq_write (json : Json) : json.canonicalText = json.inWrittenOrder.write := by
  -- By induction on the tree: only the members of objects move.
  induction json using induction with
  | null | bool _ | int _ | float _ | str _ => simp [canonicalText, inWrittenOrder, write]
  | arr items each =>
    rw [canonicalText, inWrittenOrder, write, canonicalItems_eq_writeItems each]
  | obj members each =>
    rw [canonicalText, inWrittenOrder, write, canonicalMembers_eq_writtenMembers each,
      joinMembers_writtenMembers]

/-- Ordering the members of a tree leaves its numbers alone. -/
theorem IsExact.inWrittenOrder {json : Json} (exact : json.IsExact) :
    json.inWrittenOrder.IsExact := by
  -- Every number is still there, and no number is new.
  induction json using induction with
  | null | bool _ | int _ | float _ | str _ => simpa [Json.inWrittenOrder] using exact
  | arr items each =>
    rw [IsExact, itemsExact_iff] at exact
    rw [Json.inWrittenOrder, IsExact, itemsExact_iff, itemsInWrittenOrder_eq_map]
    exact List.forall_mem_map.mpr fun item member => each item member (exact item member)
  | obj members each =>
    rw [IsExact, membersExact_iff] at exact
    rw [Json.inWrittenOrder, IsExact, membersExact_iff]
    exact forall_mem_written fun member inside => each member inside (exact member inside)

/-- Ordering the members of a tree makes it no deeper. -/
theorem depth_inWrittenOrder_le (json : Json) : json.inWrittenOrder.depth ≤ json.depth := by
  -- What is moved or left out makes nothing deeper.
  induction json using induction with
  | null | bool _ | int _ | float _ | str _ => simp [inWrittenOrder]
  | arr items each =>
    rw [inWrittenOrder, depth, depth, Nat.add_le_add_iff_right, depthItems_le_iff,
      itemsInWrittenOrder_eq_map]
    refine List.forall_mem_map.mpr fun item member => (each item member).trans ?_
    exact (depthItems_le_iff items _).mp (Nat.le_refl _) item member
  | obj members each =>
    rw [inWrittenOrder, depth, depth, Nat.add_le_add_iff_right, depthMembers_le_iff]
    refine forall_mem_written (P := fun value => value.depth ≤ depthMembers members)
      fun member inside => (each member inside).trans ?_
    exact (depthMembers_le_iff members _).mp (Nat.le_refl _) member inside

/-- Members with distinct keys are rearranged. -/
theorem written_perm {members : List (String × Json)} (distinct : (members.map Prod.fst).Nodup) :
    ((writtenEntries members).map Prod.snd).Perm (members.map (Prod.map id inWrittenOrder)) := by
  -- No two keys are written the same way.
  have written : ((members.map writtenEntry).map Prod.fst).Nodup := by
    have keys := List.Nodup.map (fun _ _ => writeText_injective) distinct
    rwa [List.map_map] at keys ⊢
  have entered := (enterAll_perm written).map Prod.snd
  rw [← writtenEntries_eq_enterAll, List.map_map] at entered
  exact entered

/-- Ordering the members of a tree without repeated keys leaves its value alone. -/
theorem sorted_inWrittenOrder {json : Json} (distinct : json.DistinctKeys) :
    json.inWrittenOrder.sorted = json.sorted := by
  -- By induction on the tree: what stands in it keeps its value wherever it is put.
  induction json using induction with
  | null | bool _ | int _ | float _ | str _ => simp [inWrittenOrder]
  | arr items each =>
    rw [DistinctKeys, itemsDistinctKeys_iff] at distinct
    rw [inWrittenOrder, sorted, sorted, sortedItems_eq_map, sortedItems_eq_map,
      itemsInWrittenOrder_eq_map, List.map_map]
    congr 1
    exact List.map_congr_left fun item member => each item member (distinct item member)
  | obj members each =>
    rw [DistinctKeys, membersDistinctKeys_iff] at distinct
    -- The members of the value are entered from a rearrangement of the same members.
    have same : (members.map (Prod.map id inWrittenOrder)).map (Prod.map id sorted) =
        members.map (Prod.map id sorted) := by
      rw [List.map_map]
      refine List.map_congr_left fun member inside => ?_
      exact congrArg (Prod.mk member.1) (each member inside (distinct.2 member inside))
    rw [inWrittenOrder, sorted, sorted, sortedMembers_eq_enterAll, sortedMembers_eq_enterAll]
    congr 1
    -- With different keys, the order in which members are entered makes no difference.
    have rearranged := (written_perm distinct.1).map (Prod.map id sorted)
    rw [same] at rearranged
    have keys : ((members.map (Prod.map id sorted)).map Prod.fst).Nodup := by
      simpa [List.map_map, Function.comp_def] using distinct.1
    refine (enterAll_eq_iff ?_ keys).mpr rearranged
    exact (rearranged.map Prod.fst).nodup_iff.mpr keys

/-- The canonical text of an exact tree without repeated keys is read back as the value of the tree,
if this does not nest too deep. -/
theorem parse?_canonicalText {json : Json} (exact : json.IsExact) (distinct : json.DistinctKeys)
    (fits : json.depth ≤ maxDepth) :
    parse? (String.ofList json.canonicalText) = some json.sorted := by
  -- The text is that of the tree in written order, and this has the same value.
  have fits := (depth_inWrittenOrder_le json).trans fits
  rw [canonicalText_eq_write, ← compact, parse?_compact exact.inWrittenOrder, if_pos fits,
    sorted_inWrittenOrder distinct]

/-- Exact trees without repeated keys that have the same canonical text have the same value. -/
theorem sorted_eq_of_canonicalText_eq {a b : Json} (left : a.IsExact ∧ a.DistinctKeys)
    (right : b.IsExact ∧ b.DistinctKeys) (same : a.canonicalText = b.canonicalText) :
    a.sorted = b.sorted := by
  -- The trees in written order have the same compact text, which can be read back.
  rw [canonicalText_eq_write, canonicalText_eq_write] at same
  have written := write_injective left.1.inWrittenOrder.firstFloat?
    right.1.inWrittenOrder.firstFloat? same
  rw [← sorted_inWrittenOrder left.2, written, sorted_inWrittenOrder right.2]

end Warrant.Json
