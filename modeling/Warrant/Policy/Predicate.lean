import Warrant.Policy.Operator
import Warrant.Text.Numeral

/-! Predicates of policies: trees of facts, comparisons, connectives and obligations. -/

namespace Warrant

/-- A fact, or a reference to a field of the request, as a type and a value. -/
structure Fact where
  type : String
  value : String
deriving DecidableEq

/-- The reference to a field of the request. -/
def Fact.ofRequest (field : String) : Fact where
  type := "request." ++ field ++ ".type"
  value := "request." ++ field ++ ".value"

/-- Obligations in the order in which they are executed. -/
abbrev Obligations := List Fact

/-- A predicate. Nothing keeps a tree from holding parts that no reader accepts: only `connect` and
`branch` check what they are given. -/
inductive Predicate where
  | empty
  | fact (fact : Fact)
  | logical (connective : Connective) (operands : List Predicate)
  | comparable (comparison : Comparison) (left right : Predicate)
  | obligations (obligations : Obligations)
  | conditional (condition : Predicate) (ifTrue ifFalse : Obligations)

namespace Predicate

mutual

/-- Equality of predicates can be decided. -/
def decideEq : (a b : Predicate) → Decidable (a = b)
  | .empty, .empty => .isTrue rfl
  | .fact a, .fact b => decidable_of_iff (a = b) (by simp)
  | .logical c as, .logical d bs =>
    if connective : c = d then
      match decideOperands as bs with
      | .isTrue operands => .isTrue (by rw [connective, operands])
      | .isFalse operands => .isFalse (by simp [operands])
    else .isFalse (by simp [connective])
  | .comparable c a a', .comparable d b b' =>
    if comparison : c = d then
      match decideEq a b, decideEq a' b' with
      | .isTrue left, .isTrue right => .isTrue (by rw [comparison, left, right])
      | .isFalse left, _ => .isFalse (by simp [left])
      | _, .isFalse right => .isFalse (by simp [right])
    else .isFalse (by simp [comparison])
  | .obligations a, .obligations b => decidable_of_iff (a = b) (by simp)
  | .conditional a s t, .conditional b u v =>
    if branches : s = u ∧ t = v then
      match decideEq a b with
      | .isTrue condition => .isTrue (by rw [condition, branches.1, branches.2])
      | .isFalse condition => .isFalse (by simp [condition])
    else .isFalse fun same => branches (by simp_all)
  | .empty, .fact _ | .empty, .logical _ _ | .empty, .comparable _ _ _ | .empty, .obligations _
  | .empty, .conditional _ _ _ | .fact _, .empty | .fact _, .logical _ _
  | .fact _, .comparable _ _ _ | .fact _, .obligations _ | .fact _, .conditional _ _ _
  | .logical _ _, .empty | .logical _ _, .fact _ | .logical _ _, .comparable _ _ _
  | .logical _ _, .obligations _ | .logical _ _, .conditional _ _ _ | .comparable _ _ _, .empty
  | .comparable _ _ _, .fact _ | .comparable _ _ _, .logical _ _
  | .comparable _ _ _, .obligations _ | .comparable _ _ _, .conditional _ _ _
  | .obligations _, .empty | .obligations _, .fact _ | .obligations _, .logical _ _
  | .obligations _, .comparable _ _ _ | .obligations _, .conditional _ _ _
  | .conditional _ _ _, .empty | .conditional _ _ _, .fact _ | .conditional _ _ _, .logical _ _
  | .conditional _ _ _, .comparable _ _ _ | .conditional _ _ _, .obligations _ =>
    .isFalse (by simp)

/-- Equality of operands can be decided one after the other. -/
def decideOperands : (a b : List Predicate) → Decidable (a = b)
  | [], [] => .isTrue rfl
  | [], _ :: _ | _ :: _, [] => .isFalse (by simp)
  | a :: as, b :: bs =>
    match decideEq a b, decideOperands as bs with
    | .isTrue first, .isTrue rest => .isTrue (by rw [first, rest])
    | .isFalse first, _ => .isFalse (by simp [first])
    | _, .isFalse rest => .isFalse (by simp [rest])

end

instance : DecidableEq Predicate := decideEq

/-- The predicates that may be operands of a connective or the condition of a decision. -/
def isListLike : Predicate → Bool
  | .empty | .fact _ => false
  | .logical _ _ | .comparable _ _ _ | .obligations _ | .conditional _ _ _ => true

/-- The word for the shape of a predicate in messages. -/
def kind : Predicate → String
  | .empty => "empty"
  | .fact _ => "single"
  | .logical _ _ => "logical"
  | .comparable _ _ _ => "comparable"
  | .obligations _ => "obligation list"
  | .conditional _ _ _ => "conditional"

/-- A fact is compared with a field of the request. -/
def compareWithRequest (comparison : Comparison) (type value field : String) : Predicate :=
  .comparable comparison (.fact ⟨type, value⟩) (.fact (.ofRequest field))

/-- Terms under a connective. No terms are the empty predicate, and a single term stands for itself.
-/
def combine (connective : Connective) : List Predicate → Predicate
  | [] => .empty
  | [term] => term
  | terms => .logical connective terms

/-- Why parts cannot be put together. -/
inductive Misfit where
  | fewOperands (connective : Connective) (count : Nat)
  | operand (connective : Connective) (kind : String)
  | condition (kind : String)
deriving DecidableEq

/-- The complaint about parts. -/
def Misfit.message : Misfit → String
  | .fewOperands connective count =>
    "'" ++ connective.name ++ "' needs at least 2 operands, got " ++
      String.ofList (Text.natural count)
  | .operand connective kind =>
    "'" ++ connective.name ++ "' operand must be list-like, got " ++ kind
  | .condition kind => "'if' condition must be list-like, got " ++ kind

/-- Operands under a connective, of which it needs at least two list-like ones. -/
def connect (connective : Connective) (operands : List Predicate) : Except Misfit Predicate :=
  if operands.length < 2 then .error (.fewOperands connective operands.length)
  else
    match operands.find? fun operand => !operand.isListLike with
    | some operand => .error (.operand connective operand.kind)
    | none => .ok (.logical connective operands)

/-- A decision between obligations on a list-like condition. -/
def branch (condition : Predicate) (ifTrue ifFalse : Obligations) : Except Misfit Predicate :=
  if condition.isListLike then .ok (.conditional condition ifTrue ifFalse)
  else .error (.condition condition.kind)

end Predicate

end Warrant
