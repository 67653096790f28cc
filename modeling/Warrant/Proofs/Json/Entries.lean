import Mathlib.Data.List.Sort
import Mathlib.Order.Defs.Unbundled
import Warrant.Json.Basic

/-! Entries in key order: as long as no key is repeated, they are those that were entered, and it
does not matter in which order. -/

namespace Warrant

variable {κ α β : Type} [LT κ]

/-- Every key is less than those behind it. -/
def Ascending (entries : List (κ × α)) : Prop :=
  entries.Pairwise fun a b => a.1 < b.1

/-- Ascending keys are distinct. -/
theorem Ascending.nodup [IsStrictTotalOrder κ (· < ·)] {entries : List (κ × α)}
    (ascending : Ascending entries) : (entries.map Prod.fst).Nodup := by
  -- A key that is less than another differs from it.
  refine (List.pairwise_map.mpr ascending).imp fun {a b} less same => ?_
  rw [same] at less
  exact irrefl b less

/-- Ascending entries are determined by which they are. -/
theorem Ascending.eq_of_perm [IsStrictTotalOrder κ (· < ·)] {a b : List (κ × α)}
    (left : Ascending a) (right : Ascending b) (same : a.Perm b) : a = b :=
  -- No key is less than one that is less than it.
  same.eq_of_pairwise (fun entry _ _ _ less greater =>
    (irrefl_of (· < ·) entry.1 (trans_of (· < ·) less greater)).elim) left right

/-- Ascending entries that are all among others stand there in the same order. -/
theorem Ascending.sublist_of_subset [IsStrictTotalOrder κ (· < ·)] {a b : List (κ × α)}
    (left : Ascending a) (right : Ascending b) (among : a ⊆ b) : a.Sublist b := by
  -- No key is less than one that is less than it.
  have antisymmetric : Std.Antisymm fun a b : κ × α => a.1 < b.1 :=
    ⟨fun entry _ less greater =>
      (irrefl_of (· < ·) entry.1 (trans_of (· < ·) less greater)).elim⟩
  exact List.sublist_of_subperm_of_pairwise (List.subperm_of_subset left.nodup.of_map among) left
    right

variable [DecidableLT κ] [DecidableEq κ]

/-- The entries in key order, entered from the last to the first. -/
def enterAll (entries : List (κ × α)) : List (κ × α) :=
  entries.foldr (fun entry entered => enter entry.1 entry.2 entered) []

/-- Contents can be changed before they are entered or afterwards. -/
theorem enter_map (f : α → β) (key : κ) (value : α) (entries : List (κ × α)) :
    enter key (f value) (entries.map (Prod.map id f)) =
      (enter key value entries).map (Prod.map id f) := by
  -- Only the keys decide where the entry goes.
  induction entries with
  | nil => rfl
  | cons entry rest ih =>
    simp only [List.map_cons, enter, Prod.map_fst, id_eq, ih]
    split
    · rfl
    · split <;> rfl

/-- A new key adds its entry and leaves the others. -/
theorem enter_perm {key : κ} (value : α) {entries : List (κ × α)}
    (new : key ∉ entries.map Prod.fst) :
    (enter key value entries).Perm ((key, value) :: entries) := by
  -- Each entry that the new one passes changes places with it.
  induction entries with
  | nil => exact .refl _
  | cons entry rest ih =>
    rw [List.map_cons, List.mem_cons, not_or] at new
    rw [enter, if_neg new.1]
    split
    · exact .refl _
    · exact ((ih new.2).cons entry).trans (.swap _ _ _)

/-- Entries whose keys are distinct are all entered. -/
theorem enterAll_perm {entries : List (κ × α)} (distinct : (entries.map Prod.fst).Nodup) :
    (enterAll entries).Perm entries := by
  -- Every key is new among those behind it.
  induction entries with
  | nil => exact .refl _
  | cons entry rest ih =>
    rw [List.map_cons, List.nodup_cons] at distinct
    have behind := ih distinct.2
    have new : entry.1 ∉ (enterAll rest).map Prod.fst := by
      rw [(behind.map Prod.fst).mem_iff]
      exact distinct.1
    exact (enter_perm entry.2 new).trans (behind.cons entry)

/-- What stands among the entries was there or is the new one. -/
theorem mem_enter {key : κ} {value : α} {entries : List (κ × α)} {entry : κ × α}
    (member : entry ∈ enter key value entries) : entry = (key, value) ∨ entry ∈ entries := by
  -- The entry is put in front of one of the others, or left out.
  induction entries with
  | nil => exact .inl (List.mem_singleton.mp member)
  | cons first rest ih =>
    rw [enter] at member
    split at member
    · exact List.mem_cons.mp member
    · split at member
      · exact .inr member
      · rcases List.mem_cons.mp member with rfl | behind
        · exact .inr List.mem_cons_self
        · exact (ih behind).imp_right (List.mem_cons_of_mem first)

/-- Every entry of all that were entered is one of them. -/
theorem mem_enterAll {entries : List (κ × α)} {entry : κ × α} (member : entry ∈ enterAll entries) :
    entry ∈ entries := by
  -- By induction, with the last entry entered first.
  induction entries with
  | nil => exact member
  | cons first rest ih =>
    rcases mem_enter member with rfl | behind
    · exact List.mem_cons_self
    · exact List.mem_cons_of_mem first (ih behind)

variable [IsStrictTotalOrder κ (· < ·)]

/-- An entry is entered where its key keeps the order. -/
theorem ascending_enter (key : κ) (value : α) {entries : List (κ × α)}
    (ascending : Ascending entries) : Ascending (enter key value entries) := by
  -- It stops in front of the first entry with a greater key.
  induction entries with
  | nil => exact List.pairwise_singleton _ _
  | cons first rest ih =>
    obtain ⟨before, behind⟩ := List.pairwise_cons.mp ascending
    rw [enter]
    split
    · -- In front of a greater key it comes before all the others as well.
      rename_i less
      refine List.pairwise_cons.mpr ⟨fun entry member => ?_, ascending⟩
      rcases List.mem_cons.mp member with rfl | member
      · exact less
      · exact trans_of (· < ·) less (before entry member)
    · rename_i notLess
      -- With the same key nothing is entered, and otherwise the key is greater than the first.
      split
      · exact ascending
      · rename_i different
        have greater : first.1 < key :=
          ((trichotomous_of (· < ·) key first.1).resolve_left notLess).resolve_left different
        refine List.pairwise_cons.mpr ⟨fun entry member => ?_, ih behind⟩
        rcases mem_enter member with rfl | member
        · exact greater
        · exact before entry member

/-- Whatever is entered, the keys ascend. -/
theorem ascending_enterAll (entries : List (κ × α)) : Ascending (enterAll entries) := by
  -- By induction: every single entry keeps the order.
  induction entries with
  | nil => exact .nil
  | cons entry rest ih => exact ascending_enter entry.1 entry.2 ih

/-- Entries in key order are left as they are. -/
theorem Ascending.enterAll_eq {entries : List (κ × α)} (ascending : Ascending entries) :
    enterAll entries = entries :=
  (ascending_enterAll entries).eq_of_perm ascending (enterAll_perm ascending.nodup)

/-- Entries with distinct keys are the same in key order exactly when one list is a rearrangement of
the other. -/
theorem enterAll_eq_iff {a b : List (κ × α)} (left : (a.map Prod.fst).Nodup)
    (right : (b.map Prod.fst).Nodup) : enterAll a = enterAll b ↔ a.Perm b := by
  -- Both are in key order, in which a list has one arrangement only.
  constructor
  · intro same
    exact (enterAll_perm left).symm.trans (same ▸ enterAll_perm right)
  · intro same
    refine (ascending_enterAll a).eq_of_perm (ascending_enterAll b) ?_
    exact (enterAll_perm left).trans (same.trans (enterAll_perm right).symm)

end Warrant
