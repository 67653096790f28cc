import Warrant.Proofs.Outcome

/-! The first fault among items that are checked one after the other. -/

namespace Warrant

/-- A fault is that of the first item at fault. -/
def FirstFault {ι ε : Type} (faulty : ι → ε → Prop) (items : List ι) (fault : ε) : Prop :=
  ∃ before item after, items = before ++ item :: after ∧ faulty item fault ∧
    ∀ earlier ∈ before, ∀ other, ¬ faulty earlier other

variable {ι ε α β : Type} {faulty : ι → ε → Prop} {fault : ε}

/-- Among no items there is none at fault. -/
theorem not_firstFault_nil : ¬ FirstFault faulty [] fault := by
  rintro ⟨before, item, after, none, _⟩
  simp at none

/-- The first item at fault is the first one of all, or that is not at fault and it is the first one
among the others. -/
theorem firstFault_cons_iff {item : ι} {rest : List ι} : FirstFault faulty (item :: rest) fault ↔
    faulty item fault ∨ (∀ other, ¬ faulty item other) ∧ FirstFault faulty rest fault := by
  -- Of the list, the part before the first item at fault is empty or starts with the first item.
  constructor
  · -- The items before the first one at fault are none, or begin with this item.
    rintro ⟨before, first, after, listed, guilty, innocent⟩
    cases before with
    | nil =>
      cases listed
      exact .inl guilty
    | cons earlier others =>
      cases listed
      obtain ⟨here, behind⟩ := List.forall_mem_cons.mp innocent
      exact .inr ⟨here, others, first, after, rfl, guilty, behind⟩
  · rintro (guilty | ⟨here, before, first, after, rfl, guilty, behind⟩)
    · exact ⟨[], item, rest, rfl, guilty, by simp⟩
    · exact ⟨item :: before, first, after, rfl, guilty, List.forall_mem_cons.mpr ⟨here, behind⟩⟩

/-- A single item is the first one at fault whenever it is at fault. -/
theorem firstFault_singleton_iff {item : ι} :
    FirstFault faulty [item] fault ↔ faulty item fault := by
  rw [firstFault_cons_iff]
  exact or_iff_left fun later => not_firstFault_nil later.2

/-- The first item at fault in two lists is in the first list, or none is there and it is the first
one in the second list. -/
theorem firstFault_append_iff {items others : List ι} : FirstFault faulty (items ++ others) fault ↔
    FirstFault faulty items fault ∨
      (∀ other, ¬ FirstFault faulty items other) ∧ FirstFault faulty others fault := by
  -- By induction on the first list, in front of which one item after the other is put.
  induction items with
  | nil => simp [not_firstFault_nil]
  | cons item rest ih =>
    simp only [List.cons_append, firstFault_cons_iff, ih, not_or, not_and, forall_and]
    -- What is left is a matter of whether the first item is at fault.
    by_cases innocent : ∀ other, ¬ faulty item other
    · simp [innocent]
    · simp [innocent]

/-- There is a first item at fault exactly when some item is at fault. -/
theorem exists_firstFault_iff {items : List ι} :
    (∃ fault, FirstFault faulty items fault) ↔ ∃ item ∈ items, ∃ fault, faulty item fault := by
  -- By induction on the items, of which the first one settles the matter or is passed over.
  induction items with
  | nil => simp [not_firstFault_nil]
  | cons item rest ih =>
    simp only [firstFault_cons_iff, exists_or, exists_and_left, ih]
    refine Iff.trans ?_ (List.exists_mem_cons_iff _ _ _).symm
    -- An item that is at fault settles both sides.
    by_cases guilty : ∃ fault, faulty item fault
    · exact iff_of_true (.inl guilty) (.inl guilty)
    · exact or_congr_right (and_iff_right (not_exists.mp guilty))

/-- A part that checks some items, and goes on with one that checks others, checks them all. -/
theorem bind_eq_error_iff_firstFault {first : Except ε α} {next : α → Except ε β}
    {items others : List ι} (here : ∀ fault, first = .error fault ↔ FirstFault faulty items fault)
    (behind : ∀ value, first = .ok value →
      (next value = .error fault ↔ FirstFault faulty others fault)) :
    first >>= next = .error fault ↔ FirstFault faulty (items ++ others) fault := by
  -- The part that goes on is checked only when the first part has a value.
  rw [bind_eq_error_iff, firstFault_append_iff, here]
  refine or_congr_right ?_
  simp only [← here]
  -- The first part has a result or a fault, and not both.
  cases first with
  | ok value =>
    constructor
    · rintro ⟨_, ⟨⟩, failed⟩
      exact ⟨nofun, (behind value rfl).mp failed⟩
    · rintro ⟨_, failed⟩
      exact ⟨value, rfl, (behind value rfl).mpr failed⟩
  | error found =>
    constructor
    · rintro ⟨_, absent, _⟩
      cases absent
    · rintro ⟨innocent, _⟩
      exact absurd rfl (innocent found)

end Warrant
