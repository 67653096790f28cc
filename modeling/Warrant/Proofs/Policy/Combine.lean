import Warrant.Proofs.Policy.WellFormed

/-! Terms under a connective: their combination is a term again, and it tells them apart. -/

namespace Warrant.Predicate

/-- The predicates that may stand under a connective: the list-like and well-formed ones. -/
structure IsTerm (predicate : Predicate) : Prop where
  listLike : predicate.isListLike = true
  formed : predicate.WellFormed

/-- A term is not the empty predicate. -/
theorem IsTerm.ne_empty {predicate : Predicate} (term : predicate.IsTerm) :
    predicate ≠ .empty := by
  rintro rfl
  exact absurd term.listLike (by decide)

/-- A comparison of a fact with a field of the request is a term. -/
theorem isTerm_compareWithRequest (comparison : Comparison) (type value field : String) :
    (compareWithRequest comparison type value field).IsTerm :=
  -- Both sides are facts.
  ⟨rfl, .comparable (.fact _) (.fact _)⟩

/-- Two terms or more are joined. -/
theorem combine_of_two_le (connective : Connective) {terms : List Predicate}
    (enough : 2 ≤ terms.length) : combine connective terms = .logical connective terms := by
  -- Shorter lists have a case of their own.
  rcases terms with _ | ⟨first, _ | ⟨second, rest⟩⟩
  · exact absurd enough (by decide)
  · exact absurd enough (by simp)
  · rfl

/-- The combination of some terms is a term. -/
theorem isTerm_combine (connective : Connective) {terms : List Predicate} (present : terms ≠ [])
    (each : ∀ term ∈ terms, term.IsTerm) : (combine connective terms).IsTerm := by
  -- A single term stands for itself, and more of them have a connective.
  by_cases enough : 2 ≤ terms.length
  · rw [combine_of_two_le connective enough]
    refine ⟨rfl, .logical enough ?_ ?_⟩
    · intro term member
      exact (each term member).listLike
    · intro term member
      exact (each term member).formed
  · have single : terms.length = 1 := by
      have positive := List.length_pos_iff.mpr present
      omega
    obtain ⟨term, rfl⟩ := List.length_eq_one_iff.mp single
    exact each term List.mem_cons_self

/-- The combination of terms is empty exactly when there are none. -/
theorem combine_eq_empty_iff (connective : Connective) {terms : List Predicate}
    (each : ∀ term ∈ terms, term.IsTerm) : combine connective terms = .empty ↔ terms = [] := by
  -- Terms combine to a term, and a term is not empty.
  constructor
  · intro empty
    by_contra present
    exact (isTerm_combine connective present each).ne_empty empty
  · rintro rfl
    rfl

/-- Lists of the same length with the same combination are the same. -/
theorem combine_inj (connective : Connective) {as bs : List Predicate}
    (sameLength : as.length = bs.length) :
    combine connective as = combine connective bs ↔ as = bs := by
  -- The length decides on the form, and each form shows all of its operands.
  refine ⟨fun same => ?_, fun same => same ▸ rfl⟩
  by_cases enough : 2 ≤ as.length
  · rw [combine_of_two_le connective enough,
      combine_of_two_le connective (sameLength ▸ enough)] at same
    exact (Predicate.logical.inj same).2
  · rcases as with _ | ⟨a, _ | ⟨_, _⟩⟩
    · exact (List.length_eq_zero_iff.mp sameLength.symm).symm
    · obtain ⟨b, rfl⟩ := List.length_eq_one_iff.mp sameLength.symm
      have equal : a = b := same
      rw [equal]
    · exact absurd enough (by simp)

end Warrant.Predicate
