import Warrant.Rule.Basic

/-! Books of rules, kept under their identifiers in the order of their entry. -/

namespace Warrant

/-- Rules in the order in which their identifiers were entered, each identifier once. -/
structure Book where
  rules : List Rule
  distinct : (rules.map Rule.id).Nodup

namespace Book

/-- The book without rules. -/
def empty : Book := ⟨[], List.nodup_nil⟩

/-- The number of rules. -/
def size (book : Book) : Nat :=
  book.rules.length

/-- The rule under an identifier. -/
def get? (book : Book) (id : RuleId) : Option Rule :=
  book.rules.find? fun rule => rule.id = id

/-- Nothing is found in the empty book. -/
@[simp] theorem get?_empty (id : RuleId) : empty.get? id = none :=
  rfl

/-- A rule that was found has the identifier under which it was looked up. -/
theorem id_of_get?_eq_some {book : Book} {id : RuleId} {rule : Rule}
    (found : book.get? id = some rule) : rule.id = id := by
  -- The search stops at that identifier only.
  have matched := List.find?_some found
  rwa [decide_eq_true_eq] at matched

/-- Puts a rule in the place of the one with its identifier, or else at the end. -/
def place (rule : Rule) : List Rule → List Rule
  | [] => [rule]
  | first :: rest => if first.id = rule.id then rule :: rest else first :: place rule rest

/-- Placing a rule enters its identifier unless it is there. -/
theorem map_id_place (rule : Rule) (rules : List Rule) :
    (place rule rules).map Rule.id =
      if rule.id ∈ rules.map Rule.id then rules.map Rule.id
      else rules.map Rule.id ++ [rule.id] := by
  -- The walk stops at the identifier, or comes to the end.
  induction rules with
  | nil => simp [place]
  | cons first rest ih =>
    by_cases found : first.id = rule.id
    · simp [place, found]
    · simp only [place, found, if_false, List.map_cons, ih, List.mem_cons, Ne.symm found, false_or]
      split <;> simp

/-- A rule that was placed is found under its identifier, and the others stay where they are. -/
theorem find?_place (rule : Rule) (rules : List Rule) (id : RuleId) :
    (place rule rules).find? (fun entry => entry.id = id) =
      if id = rule.id then some rule else rules.find? fun entry => entry.id = id := by
  -- The search meets the placed rule where the walk stopped.
  induction rules with
  | nil => by_cases same : id = rule.id <;> simp [place, same, eq_comm]
  | cons first rest ih =>
    by_cases found : first.id = rule.id
    · -- The rule stands in the place of the first, under the same identifier.
      by_cases same : id = rule.id
      · simp [place, found, same]
      · simp [place, found, same, Ne.symm same]
    · by_cases here : first.id = id
      · have other : id ≠ rule.id := fun equal => found (here.trans equal)
        simp [place, here, other]
      · simp only [place, found, if_false, List.find?_cons, here, decide_false, ih]

/-- The book after the entry of a rule, which takes the place of the one with its identifier. -/
def enter (book : Book) (rule : Rule) : Book where
  rules := place rule book.rules
  distinct := by
    -- Only a new identifier is added.
    rw [map_id_place]
    split
    · exact book.distinct
    · rename_i absent
      rw [List.nodup_append]
      refine ⟨book.distinct, by simp, fun id member other same => ?_⟩
      simp only [List.mem_singleton] at same
      exact fun equal => absent (same ▸ equal ▸ member)

/-- After an entry the rule is found under its identifier, and every other rule as before. -/
theorem get?_enter (book : Book) (rule : Rule) (id : RuleId) :
    (book.enter rule).get? id = if id = rule.id then some rule else book.get? id :=
  find?_place rule book.rules id

/-- Enters a rule, and gives the one whose place it took. -/
def put (book : Book) (rule : Rule) : Option Rule × Book :=
  (book.get? rule.id, book.enter rule)

/-- The book without the rule under an identifier. -/
def erase (book : Book) (id : RuleId) : Book where
  rules := book.rules.filter fun rule => rule.id ≠ id
  distinct := (List.filter_sublist.map Rule.id).nodup book.distinct

/-- A rule that was taken out is not found, and every other rule is found as before. -/
theorem get?_erase (book : Book) (id other : RuleId) :
    (book.erase id).get? other = if other = id then none else book.get? other := by
  -- The search passes over nothing that it asks for, unless it asks for what was taken out.
  by_cases same : other = id
  · subst same
    simp [get?, erase]
  · have kept : (fun rule : Rule => decide (decide (rule.id ≠ id) = true ∧
        decide (rule.id = other) = true)) = fun rule => decide (rule.id = other) := by
      funext rule
      by_cases found : rule.id = other
      · simp [found, same]
      · simp [found]
    rw [if_neg same, get?, erase, List.find?_filter, kept, get?]

/-- Takes out the rule under an identifier, and gives it. -/
def remove (book : Book) (id : RuleId) : Option Rule × Book :=
  (book.get? id, book.erase id)

/-- The book into which rules were entered one after the other. -/
def ofList (rules : List Rule) : Book :=
  rules.foldl enter empty

end Book

end Warrant
