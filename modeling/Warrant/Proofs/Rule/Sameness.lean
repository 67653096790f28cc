import Warrant.Proofs.Policy.Combine
import Warrant.Proofs.Policy.Identity
import Warrant.Proofs.Rule.Geofence
import Warrant.Rule.Compile

/-! Constraints that are taken for the same. Numbers are compared by value and members by
identifier, so that the signs of zeros and what the members ask for still make a difference. -/

namespace Warrant

namespace Binary

variable {F : BinaryFormat}

/-- Whether a number is written with a sign before it, which zero has too. -/
def isNegative : Binary F → Bool
  | .nan => false
  | .infinite negative => negative
  | .finite x => x.negative

/-- Equal numbers are one number exactly when they have the same sign. -/
theorem eq_iff_of_isSame {x y : Binary F} (same : x.isSame y = true) :
    x = y ↔ x.isNegative = y.isNegative := by
  -- The comparison looks at the kind of number and at its position, and leaves the sign of finite
  -- ones.
  constructor
  · intro equal
    rw [equal]
  · intro sign
    cases x with
    | nan => cases same
    | infinite negative =>
      cases y with
      | infinite other => rw [eq_of_beq same]
      | _ => cases same
    | finite x =>
      cases y with
      | finite y =>
        -- The position is the same, and the sign is the other half of a finite number.
        obtain ⟨negative, index⟩ := x
        obtain ⟨other, position⟩ := y
        have place : index = position := eq_of_beq (Bool.and_eq_true_iff.mp same).1
        have half : negative = other := sign
        rw [place, half]
      | _ => cases same

/-- A finite number equals itself. -/
theorem isSame_self {x : Binary F} (finite : x.isFinite = true) : x.isSame x = true := by
  cases x with
  | finite x => simp [isSame]
  | _ => cases finite

/-- The number at a position has the sign that it was given, on the grid and beyond it. -/
@[simp] theorem isNegative_ofIndex (negative : Bool) (index : Nat) :
    (ofIndex negative index : Binary F).isNegative = negative := by
  rw [ofIndex]
  split <;> rfl

/-- A positive factor keeps the sign. -/
@[simp] theorem isNegative_scale (factor : Finite F) (x : Binary F) :
    (x.scale factor).isNegative = x.isNegative := by
  cases x with
  | finite x => exact isNegative_ofIndex ..
  | _ => rfl

/-- A divisor keeps the sign. -/
@[simp] theorem isNegative_divide (divisor : Nat) (x : Binary F) :
    (x.divide divisor).isNegative = x.isNegative := by
  cases x with
  | finite x => exact isNegative_ofIndex ..
  | _ => rfl

end Binary

/-- A radius is enforced with its sign. -/
@[simp] theorem DistanceUnit.isNegative_enforced (unit : DistanceUnit) (radius : Binary binary32) :
    (unit.enforced radius).isNegative = radius.isNegative := by
  cases unit <;> simp [enforced]

namespace Geofence

/-- The signs of the three numbers of a circle. -/
def signs (fence : Geofence) : List Bool :=
  [fence.latitude.isNegative, fence.longitude.isNegative, fence.radius.isNegative]

/-- A circle of finite numbers is taken for itself. -/
theorem isSame_self {fence : Geofence} (latitude : fence.latitude.isFinite = true)
    (longitude : fence.longitude.isFinite = true) (radius : fence.radius.isFinite = true) :
    fence.isSame fence = true := by
  simp [isSame, Binary.isSame_self latitude, Binary.isSame_self longitude,
    Binary.isSame_self radius]

/-- Circles with equal fields are one circle exactly when the fields have the same signs. -/
theorem eq_iff_of_isSame {a b : Geofence} (same : a.isSame b = true) :
    a = b ↔ a.signs = b.signs := by
  -- Each of the three numbers is settled by its own sign, and the units are compared outright.
  simp only [isSame, Bool.and_eq_true, decide_eq_true_eq] at same
  obtain ⟨⟨⟨latitude, longitude⟩, radius⟩, unit⟩ := same
  constructor
  · intro equal
    rw [equal]
  · intro signs
    simp only [Geofence.signs, List.cons.injEq, and_true] at signs
    obtain ⟨first, second, third⟩ := signs
    obtain ⟨x, y, r, u⟩ := a
    obtain ⟨x', y', r', u'⟩ := b
    rw [Geofence.mk.injEq]
    exact ⟨(Binary.eq_iff_of_isSame latitude).mpr first,
      (Binary.eq_iff_of_isSame longitude).mpr second,
      (Binary.eq_iff_of_isSame radius).mpr third, unit⟩

/-- The text of a circle shows the signs of its numbers. -/
theorem signs_eq_of_value_eq {a b : Geofence} (same : a.value = b.value) : a.signs = b.signs := by
  have wide : 2 ≤ binary32.precision := by decide
  -- Between the commas stands what is written of each number, which is read in one way only.
  have parts := a.splitOn_value
  rw [same, b.splitOn_value] at parts
  simp only [List.cons.injEq, and_true] at parts
  obtain ⟨latitude, longitude, radius⟩ := parts
  have enforced := congrArg Binary.isNegative (Binary.write_injective wide .field radius)
  rw [DistanceUnit.isNegative_enforced, DistanceUnit.isNegative_enforced] at enforced
  rw [signs, signs, Binary.write_injective wide .field latitude,
    Binary.write_injective wide .field longitude, enforced]

/-- Circles with equal fields stand for one predicate exactly when the fields have the same signs.
-/
theorem predicate_eq_iff_of_isSame {a b : Geofence} (same : a.isSame b = true) :
    a.predicate = b.predicate ↔ a.signs = b.signs := by
  -- Equal predicates hold equal texts, in which the signs are seen.
  constructor
  · intro equal
    simp only [predicate, Predicate.compareWithRequest, Predicate.comparable.injEq,
      Predicate.fact.injEq, Fact.mk.injEq, true_and, and_true] at equal
    exact signs_eq_of_value_eq equal
  · intro signs
    rw [(eq_iff_of_isSame same).mpr signs]

end Geofence

namespace Constraint

/-- The signs of the numbers in a constraint, of which only circles have some. -/
def signs : Constraint → List Bool
  | .location fence => fence.signs
  | _ => []

/-- The numbers in two constraints have the same signs, and members at the same place stand for the
same predicate. -/
def Agrees (a b : Constraint) : Prop :=
  a.signs = b.signs ∧ a.members.map Rule.predicate = b.members.map Rule.predicate

/-- Constraints that are taken for the same stand for one predicate exactly when they agree. -/
theorem predicate_eq_iff_agrees {a b : Constraint} (same : a.isSame b = true) :
    a.predicate = b.predicate ↔ a.Agrees b := by
  -- Only constraints of one kind are taken for the same, and of those only two kinds show anything
  -- more.
  cases a with
  | time window =>
    cases b with
    | time other =>
      rw [of_decide_eq_true same]
      exact iff_of_true rfl ⟨rfl, rfl⟩
    | _ => cases same
  | location fence =>
    cases b with
    | location other =>
      have signs := Geofence.predicate_eq_iff_of_isSame same
      simp only [predicate, Agrees, Constraint.signs, members, and_true]
      exact signs
    | _ => cases same
  | cap max =>
    cases b with
    | cap other =>
      rw [of_decide_eq_true same]
      exact iff_of_true rfl ⟨rfl, rfl⟩
    | _ => cases same
  | group satisfy first rest =>
    cases b with
    | group mode head tail =>
      -- Both groups combine as many predicates in the same way, and the combination shows them all.
      simp only [isSame, Bool.and_eq_true, decide_eq_true_eq] at same
      obtain ⟨connective, ids⟩ := same
      have count := congrArg List.length ids
      rw [List.length_map, List.length_map] at count
      rw [predicate_group, predicate_group, connective,
        Predicate.combine_inj _ (by rw [List.length_map, List.length_map, count])]
      simp only [Agrees, signs, members, true_and]
    | _ => cases same

/-- Constraints that are taken for the same stand for one predicate exactly when the numbers in them
have the same signs, and members at the same place stand for the same predicate. Bodies that show
the predicates have one identifier in that case only, unless the texts of the policies collide. -/
theorem same_meaning_iff_agrees {a b : Constraint} (same : a.isSame b = true) :
    (a.predicate = b.predicate ↔ a.Agrees b) ∧
    ∀ (body : Predicate → Body) (hashFunction cost : String) (i j : PolicyId),
      Function.Injective body →
      Policy.computeId hashFunction (body a.predicate) cost = .ok i →
      Policy.computeId hashFunction (body b.predicate) cost = .ok j →
        (i = j ↔ a.Agrees b ∨ Policy.Collision hashFunction hashFunction
          (body a.predicate) (body b.predicate) cost cost) := by
  refine ⟨predicate_eq_iff_agrees same, fun body hashFunction cost i j shows first second => ?_⟩
  rw [Policy.computeId_eq_iff first second, shows.eq_iff, predicate_eq_iff_agrees same]

/-- A circle around a point on the equator, whose latitude is one of the two zeros. -/
def equatorCircle (negative : Bool) : Geofence :=
  ⟨.ofIndex negative 0, .ofIndex false 0, .ofIndex false 1065353216, .kilometers⟩

/-- A choice between a constraint and a circle. -/
def equatorChoice (other : Constraint) : Constraint :=
  .group .any ⟨⟨1⟩, other⟩ [⟨⟨2⟩, .location (equatorCircle true)⟩]

/-- Whether a cap is a choice by itself or in a group of its own, the choices are taken for the same
and stand for one predicate, and policies that grant by them have one identifier. -/
theorem same_meaning_equatorChoice :
    let plain := equatorChoice (.cap 2)
    let wrapped := equatorChoice (.group .all ⟨⟨3⟩, .cap 2⟩ [])
    plain.isSame wrapped = true ∧ plain.predicate = wrapped.predicate ∧
      ∃ i j, Policy.computeId "sha-256" { Body.empty with grant := plain.predicate } "" = .ok i ∧
        Policy.computeId "sha-256" { Body.empty with grant := wrapped.predicate } "" = .ok j ∧
        i = j := by
  -- The general result needs two identifiers, which the known hash function gives.
  intro plain wrapped
  have same : plain.isSame wrapped = true := by rfl
  have agrees : plain.Agrees wrapped := ⟨rfl, rfl⟩
  have known : Algorithm.ofName "sha-256" = .ok .sha256 := by rfl
  have shows : Function.Injective fun grant => { Body.empty with grant := grant } :=
    fun _ _ equal => congrArg Body.grant equal
  have first := Policy.computeId_of_ofName known { Body.empty with grant := plain.predicate } ""
  have second := Policy.computeId_of_ofName known { Body.empty with grant := wrapped.predicate } ""
  obtain ⟨meaning, identifiers⟩ := same_meaning_iff_agrees same
  exact ⟨same, meaning.mpr agrees, _, _, first, second,
    (identifiers _ _ _ _ _ shows first second).mpr (.inl agrees)⟩

/-- Groups of one member are taken for the same whatever cap the member has, and so are circles
around the two zeros. They stand for different predicates all the same. -/
theorem same_without_meaning :
    let capped (max : Nat) := Constraint.group .all ⟨⟨1⟩, .cap max⟩ []
    let around (negative : Bool) := Constraint.location (equatorCircle negative)
    ((capped 5).isSame (capped 1) = true ∧ (capped 5).predicate ≠ (capped 1).predicate) ∧
      (around false).isSame (around true) = true ∧
      (around false).predicate ≠ (around true).predicate := by
  -- The circles are the same by their fields, and the predicates tell their zeros apart.
  intro capped around
  have circles : (around false).isSame (around true) = true := by rfl
  refine ⟨⟨rfl, by decide⟩, circles, fun equal => ?_⟩
  -- The zeros are written with different signs.
  have signs := ((predicate_eq_iff_agrees circles).mp equal).1
  exact absurd signs (by decide)

end Constraint

end Warrant
