/-! The operators of predicates, and their names. -/

namespace Warrant

/-- How several predicates are combined. -/
inductive Connective where
  | and
  | or
deriving DecidableEq

namespace Connective

/-- The name written into policies. -/
def name : Connective → String
  | .and => "and"
  | .or => "or"

/-- The connective of a name. -/
def ofName? (name : String) : Option Connective :=
  if name = "and" then some .and else if name = "or" then some .or else none

/-- Every connective is found under its name. -/
theorem ofName?_name (c : Connective) : ofName? c.name = some c := by
  -- There are two connectives.
  cases c <;> decide

/-- A connective is found under its own name only. -/
theorem eq_name_of_ofName? {name : String} {connective : Connective}
    (known : ofName? name = some connective) : name = connective.name := by
  grind [ofName?, name]

/-- Connectives with the same name are the same. -/
@[simp] theorem name_inj {c d : Connective} : c.name = d.name ↔ c = d := by
  -- There are two connectives.
  cases c <;> cases d <;> decide

/-- No connective has the name of a decision. -/
@[simp] theorem name_ne_if (c : Connective) : c.name ≠ "if" := by
  cases c <;> decide

end Connective

/-- How two sides are compared, the left one first. -/
inductive Comparison where
  | eq
  | leq
  | geq
  | lt
  | gt
deriving DecidableEq

namespace Comparison

/-- The name written into policies. -/
def name : Comparison → String
  | .eq => "eq"
  | .leq => "leq"
  | .geq => "geq"
  | .lt => "lt"
  | .gt => "gt"

/-- The comparison of a name. -/
def ofName? (name : String) : Option Comparison :=
  if name = "eq" then some .eq
  else if name = "leq" then some .leq
  else if name = "geq" then some .geq
  else if name = "lt" then some .lt
  else if name = "gt" then some .gt
  else none

/-- Every comparison is found under its name. -/
theorem ofName?_name (c : Comparison) : ofName? c.name = some c := by
  -- There are five comparisons.
  cases c <;> decide

/-- A comparison is found under its own name only. -/
theorem eq_name_of_ofName? {name : String} {comparison : Comparison}
    (known : ofName? name = some comparison) : name = comparison.name := by
  grind [ofName?, name]

/-- Comparisons with the same name are the same. -/
@[simp] theorem name_inj {c d : Comparison} : c.name = d.name ↔ c = d := by
  -- There are five comparisons.
  cases c <;> cases d <;> decide

/-- No comparison has the name of a decision. -/
@[simp] theorem name_ne_if (c : Comparison) : c.name ≠ "if" := by
  cases c <;> decide

/-- No comparison has the name of a connective. -/
@[simp] theorem name_ne_connective (c : Comparison) (d : Connective) : c.name ≠ d.name := by
  cases c <;> cases d <;> decide

/-- The name of a comparison is that of no connective. -/
@[simp] theorem connective_ofName?_name (c : Comparison) : Connective.ofName? c.name = none := by
  cases c <;> decide

end Comparison

end Warrant
