import Mathlib.Data.List.Forall2

/-! Results and errors of parts that are taken one after the other. -/

namespace Warrant

variable {ε α β γ : Type}

/-- Two parts have a result exactly when the first has one with which the second goes on. -/
theorem bind_eq_ok_iff {first : Except ε α} {next : α → Except ε β} {result : β} :
    first >>= next = .ok result ↔ ∃ value, first = .ok value ∧ next value = .ok result := by
  -- An error of the first part is that of both.
  cases first with
  | error cause =>
    constructor
    · intro failed
      cases failed
    · rintro ⟨value, failed, _⟩
      cases failed
  | ok value =>
    constructor
    · intro both
      exact ⟨value, rfl, both⟩
    · rintro ⟨other, same, both⟩
      cases same
      exact both

/-- Two parts fail when the first does, or when it has a result with which the second fails. -/
theorem bind_eq_error_iff {first : Except ε α} {next : α → Except ε β} {cause : ε} :
    first >>= next = .error cause ↔
      first = .error cause ∨ ∃ value, first = .ok value ∧ next value = .error cause := by
  -- What the first part does decides which of the two ways is open.
  cases first with
  | error other =>
    constructor
    · intro failed
      cases failed
      exact .inl rfl
    · rintro (failed | ⟨value, failed, _⟩)
      · cases failed
        rfl
      · cases failed
  | ok value =>
    constructor
    · intro failed
      exact .inr ⟨value, rfl, failed⟩
    · rintro (failed | ⟨other, same, failed⟩)
      · cases failed
      · cases same
        exact failed

/-- Two parts of which the second never fails have the error of the first. -/
theorem bind_eq_error_iff_left {first : Except ε α} {next : α → Except ε β} {cause : ε}
    (harmless : ∀ value, next value ≠ .error cause) :
    first >>= next = .error cause ↔ first = .error cause := by
  rw [bind_eq_error_iff]
  exact or_iff_left fun ⟨value, _, failed⟩ => harmless value failed

/-- A part has a result exactly when it has no error. -/
theorem exists_eq_ok_iff {part : Except ε α} :
    (∃ result, part = .ok result) ↔ ∀ cause, part ≠ .error cause := by
  cases part with
  | error cause => exact iff_of_false nofun fun none => none cause rfl
  | ok result => exact iff_of_true ⟨result, rfl⟩ nofun

/-- Another name for the error leaves the results alone. -/
theorem mapError_eq_ok_iff {δ : Type} {part : Except ε α} {rename : ε → δ} {result : α} :
    part.mapError rename = .ok result ↔ part = .ok result := by
  -- An error stays an error.
  cases part with
  | error cause =>
    constructor
    · intro failed
      cases failed
    · intro failed
      cases failed
  | ok value =>
    show Except.ok value = .ok result ↔ _
    rw [Except.ok.injEq, Except.ok.injEq]

/-- An error has its other name. -/
theorem mapError_eq_error_iff {δ : Type} {part : Except ε α} {rename : ε → δ} {cause : δ} :
    part.mapError rename = .error cause ↔ ∃ other, part = .error other ∧ rename other = cause := by
  -- An error keeps its place under the renaming, and a result is no error on either side.
  cases part with
  | error other =>
    constructor
    · intro failed
      cases failed
      exact ⟨other, rfl, rfl⟩
    · rintro ⟨_, ⟨⟩, rfl⟩
      rfl
  | ok value =>
    constructor
    · intro failed
      cases failed
    · rintro ⟨_, ⟨⟩, _⟩

/-- A list of parts has results exactly when each part has the result in its place. -/
theorem mapM_eq_ok_iff {part : α → Except ε β} {items : List α} {results : List β} :
    items.mapM part = .ok results ↔ items.map part = results.map .ok := by
  -- The first part and the others succeed independently of each other.
  induction items generalizing results with
  | nil => cases results <;> simp [pure, Except.pure]
  | cons item rest ih =>
    rw [List.mapM_cons, bind_eq_ok_iff]
    constructor
    · rintro ⟨value, first, others⟩
      rw [bind_eq_ok_iff] at others
      obtain ⟨values, tail, whole⟩ := others
      cases whole
      rw [List.map_cons, List.map_cons, first, ih.mp tail]
    · intro same
      cases results with
      | nil => simp at same
      | cons value values =>
        rw [List.map_cons, List.map_cons] at same
        obtain ⟨first, tail⟩ := List.cons.inj same
        refine ⟨value, first, ?_⟩
        rw [ih.mpr tail]
        rfl

/-- A list of parts is there exactly when each part is there in its place. -/
theorem mapM_eq_some_iff {part : α → Option β} {items : List α} {results : List β} :
    items.mapM part = some results ↔ items.map part = results.map some := by
  -- By induction on the items, with one result taken off for each item that has one.
  induction items generalizing results with
  | nil => cases results <;> simp
  | cons item rest ih =>
    rw [List.mapM_cons]
    simp only [Option.bind_eq_bind, Option.pure_def, Option.bind_eq_some_iff, Option.some.injEq, ih]
    cases results with
    | nil => simp
    | cons result others => simp [and_comm]

/-- Something is read of each item of a list that is read. -/
theorem exists_result_of_mem {part : α → Option β} {items : List α} {results : List β}
    (read : items.map part = results.map some) {item : α} (held : item ∈ items) :
    ∃ result ∈ results, part item = some result := by
  have found : part item ∈ results.map some := read ▸ List.mem_map_of_mem held
  obtain ⟨result, inside, same⟩ := List.mem_map.mp found
  exact ⟨result, inside, same.symm⟩

/-- Each result of a list that is read is read of an item. -/
theorem exists_item_of_mem {part : α → Option β} {items : List α} {results : List β}
    (read : items.map part = results.map some) {result : β} (held : result ∈ results) :
    ∃ item ∈ items, part item = some result := by
  have found : some result ∈ items.map part := read ▸ List.mem_map_of_mem held
  exact List.mem_map.mp found

/-- What relates each item to what is read of it relates the lists. -/
theorem forall₂_of_map_eq_map_some {part : α → Option β} {R : α → β → Prop}
    {items : List α} {results : List β} (read : items.map part = results.map some)
    (each : ∀ item ∈ items, ∀ result, part item = some result → R item result) :
    List.Forall₂ R items results := by
  -- The two lists have equal lengths, so they are walked together and a missing end is absurd.
  induction items generalizing results with
  | nil =>
    cases results with
    | nil => exact .nil
    | cons _ _ => cases read
  | cons item rest ih =>
    cases results with
    | nil => cases read
    | cons result others =>
      obtain ⟨first, behind⟩ := List.cons.inj read
      obtain ⟨here, later⟩ := List.forall_mem_cons.mp each
      exact .cons (here result first) (ih behind later)

/-- Results that are changed one by one may as well be changed when all of them are there. -/
theorem mapM_map_result (part : α → Except ε β) (change : β → γ) (items : List α) :
    (items.mapM fun item => (part item).map change) =
      (items.mapM part).map (List.map change) := by
  -- The first error is the same, since a change of results makes none.
  induction items with
  | nil => rfl
  | cons item rest ih =>
    rw [List.mapM_cons, List.mapM_cons, ih]
    cases part item with
    | error cause => rfl
    | ok value => cases rest.mapM part <;> rfl

end Warrant
