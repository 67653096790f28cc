import Warrant.Proofs.Policy.Operators
import Warrant.Proofs.Policy.StrictReading

/-! Which edits of a document change the body that is read from it. The readings of its four slots
decide, and in the value of a slot only the members that readers of predicates look for. -/

namespace Warrant

/-- The keys that readers of predicates look for. -/
def Predicate.readKeys : List String :=
  ["operation", "attribute_list", "obligations", "type", "value"]

namespace Json

/-- Two values that no reader of predicates tells apart, because they differ at most in members
under other keys, at any depth. -/
inductive LooksLike : Json → Json → Prop where
  /-- A value looks like itself. -/
  | same (json : Json) : LooksLike json json
  /-- Every item looks like the one in its place. -/
  | items {items others : List Json} (each : List.Forall₂ LooksLike items others) :
    LooksLike (.arr items) (.arr others)
  /-- Under every key that readers look for stand values that look alike, or there is none. -/
  | members {members others : List (String × Json)}
    (each : ∀ key ∈ Predicate.readKeys,
      Option.Rel LooksLike (members.lookup key) (others.lookup key)) :
    LooksLike (.obj members) (.obj others)

/-- What a value is read as, by each reader that is called on a part of a predicate. -/
def readings (json : Json) : Option Fact × Option Obligations × Option Predicate :=
  (Fact.ofJson? json, Obligations.ofJson? json, Predicate.ofJson? json)

/-- Two values that are read alike, and the items in them as well. -/
structure ReadAlike (a b : Json) : Prop where
  text : a.text? = b.text?
  items : a.items?.map (List.map readings) = b.items?.map (List.map readings)
  whole : a.readings = b.readings

/-- A value is read like itself. -/
theorem ReadAlike.refl (json : Json) : ReadAlike json json :=
  ⟨rfl, rfl, rfl⟩

/-- In two places, both empty or holding values that are read alike, are the same text and items
that are read alike. -/
theorem bind_eq_of_rel {first second : Option Json} (alike : Option.Rel ReadAlike first second) :
    first.bind text? = second.bind text? ∧
      (first.bind items?).map (List.map readings) =
        (second.bind items?).map (List.map readings) := by
  cases alike with
  | some alike => exact ⟨alike.text, alike.items⟩
  | none => exact ⟨rfl, rfl⟩

end Json

open Json (LooksLike ReadAlike readings)

/-- A fact is read from two texts only. -/
theorem Fact.ofJson?_congr {a b : Json}
    (type : (a.member? "type").bind Json.text? = (b.member? "type").bind Json.text?)
    (value : (a.member? "value").bind Json.text? = (b.member? "value").bind Json.text?) :
    Fact.ofJson? a = Fact.ofJson? b := by
  -- The reader looks both members up and wants texts of them.
  simp only [Fact.ofJson?, Option.bind_eq_bind, ← Option.bind_assoc, type, value]

/-- Obligations are read from the facts that are listed. -/
theorem Obligations.ofJson?_eq_bind_readings (json : Json) : Obligations.ofJson? json =
    (((json.member? "obligations").bind Json.items?).map (List.map readings)).bind
      fun found => (found.map Prod.fst).mapM id := by
  -- Of each item only its reading as a fact matters.
  have facts : ∀ items : List Json,
      items.mapM Fact.ofJson? = ((items.map readings).map Prod.fst).mapM id := by
    intro items
    apply Option.ext
    intro list
    rw [mapM_eq_some_iff, mapM_eq_some_iff, List.map_id, List.map_map]
    rfl
  simp only [Obligations.ofJson?, Option.bind_eq_bind, ← Option.bind_assoc, Option.bind_map]
  exact congrArg _ (funext facts)

namespace Operator

/-- What the attributes of an operator stand for is seen in their readings. -/
theorem children_congr (operator : Operator) {items others : List Json}
    (same : items.map readings = others.map readings) :
    operator.children items = operator.children others := by
  -- Each role takes one of the readings of every item.
  have role {α : Type} {items others : List Json}
      (same : items.map readings = others.map readings)
      (part : Option Fact × Option Obligations × Option Predicate → α) :
      items.map (part ∘ readings) = others.map (part ∘ readings) := by
    rw [← List.map_map, ← List.map_map, same]
  cases operator with
  | decision =>
    cases items with
    | nil => rw [List.map_eq_nil_iff.mp same.symm]
    | cons condition branches =>
      cases others with
      | nil => cases same
      | cons other rest =>
        -- The condition is read as a predicate, and what follows on it as obligations.
        obtain ⟨first, behind⟩ := List.cons.inj same
        have conditions : Predicate.ofJson? condition = Predicate.ofJson? other :=
          congrArg (fun found => found.2.2) first
        have duties := role behind fun found => found.2.1.map Predicate.obligations
        exact congrArg₂ List.cons (congrArg Predicate.listLike? conditions) duties
  -- The other operators read every item in the same role.
  | logical connective => exact role same fun found => Predicate.listLike? found.2.2
  | comparable comparison => exact role same fun found => found.2.2

/-- A node of an operator is read from the readings of the attributes. -/
theorem Reads.congr {operator : Operator} {a b : Json} {node : Predicate}
    (same : ((a.member? "attribute_list").bind Json.items?).map (List.map readings) =
      ((b.member? "attribute_list").bind Json.items?).map (List.map readings))
    (read : operator.Reads a node) : operator.Reads b node := by
  -- The readings of the items fix how many there are and what each of them is read as.
  obtain ⟨items, parts, listed, taken, joined⟩ := read
  rw [listed, Option.bind_some, Json.items?, Option.map_some, eq_comm, Option.map_eq_some_iff] at same
  obtain ⟨others, found, same⟩ := same
  -- The other list stands in an array as well.
  obtain ⟨value, listed, isArray⟩ := Option.bind_eq_some_iff.mp found
  cases value with
  | arr entries =>
    cases isArray
    exact ⟨_, parts, listed, (operator.children_congr same).trans taken, joined⟩
  | _ => cases isArray

end Operator

namespace Json

/-- Objects are read alike when values that are read alike stand under each key that readers look
for. -/
theorem readAlike_obj {members others : List (String × Json)}
    (each : ∀ key ∈ Predicate.readKeys,
      Option.Rel ReadAlike (members.lookup key) (others.lookup key)) :
    ReadAlike (.obj members) (.obj others) := by
  -- Every reader looks under its own keys only, so that each of them finds what is read alike.
  have under : ∀ key ∈ Predicate.readKeys,
      ((Json.obj members).member? key).bind text? = ((Json.obj others).member? key).bind text? ∧
        (((Json.obj members).member? key).bind items?).map (List.map readings) =
          (((Json.obj others).member? key).bind items?).map (List.map readings) :=
    fun key known => bind_eq_of_rel (each key known)
  -- Of the five keys, two make up a fact, one a list, and two an operation.
  have facts : Fact.ofJson? (.obj members) = Fact.ofJson? (.obj others) :=
    Fact.ofJson?_congr (under "type" (by decide)).1 (under "value" (by decide)).1
  have lists : Obligations.ofJson? (.obj members) = Obligations.ofJson? (.obj others) := by
    rw [Obligations.ofJson?_eq_bind_readings, Obligations.ofJson?_eq_bind_readings,
      (under "obligations" (by decide)).2]
  have beside : Predicate.beside? (.obj members) = Predicate.beside? (.obj others) := by
    rw [Predicate.beside?, Predicate.beside?, facts, lists]
  have operation : Predicate.operationOf? (.obj members) = Predicate.operationOf? (.obj others) :=
    (under "operation" (by decide)).1
  have attributes := (under "attribute_list" (by decide)).2
  refine ⟨rfl, rfl, ?_⟩
  rw [readings, readings, facts, lists]
  congr 2
  -- Both objects name the same operator, or neither names any.
  by_cases named : ∃ operator : Operator, Predicate.operationOf? (.obj members) = some operator.name
  · obtain ⟨operator, named⟩ := named
    apply Option.ext
    intro predicate
    have node (node : Predicate) :
        operator.Reads (.obj members) node ↔ operator.Reads (.obj others) node :=
      ⟨.congr attributes, .congr attributes.symm⟩
    rw [Predicate.ofJson?_eq_some_iff named, Predicate.ofJson?_eq_some_iff (operation ▸ named),
      beside]
    simp only [node]
  · rw [Predicate.ofJson?_eq_beside?_of_unnamed named,
      Predicate.ofJson?_eq_beside?_of_unnamed (operation ▸ named), beside]

/-- Values that look alike are read alike. -/
theorem LooksLike.readAlike {a b : Json} (alike : LooksLike a b) : ReadAlike a b := by
  -- By induction on the first value, whose parts look like those of the other.
  induction a using Json.induction generalizing b with
  | null | bool _ | int _ | float _ | str _ =>
    cases alike
    exact .refl _
  | arr items ih =>
    cases alike with
    | same => exact .refl _
    | @items _ others each =>
      have same : items.map readings = others.map readings := by
        induction each with
        | nil => rfl
        | cons first _ rest =>
          rw [List.map_cons, List.map_cons, (ih _ List.mem_cons_self first).whole,
            rest fun item inside => ih item (List.mem_cons_of_mem _ inside)]
      exact ⟨rfl, congrArg some same, rfl⟩
  | obj members ih =>
    cases alike with
    | same => exact .refl _
    | @members _ others each =>
      apply readAlike_obj
      intro key known
      have values := each key known
      have inside : ∀ value, members.lookup key = some value →
          ∀ {other}, LooksLike value other → ReadAlike value other :=
        fun value found => ih (key, value) (mem_of_lookup_eq_some found)
      -- Under one key there are two values or none.
      generalize members.lookup key = value at values inside
      generalize others.lookup key = other at values
      cases values with
      | some alike => exact .some (inside _ rfl alike)
      | none => exact .none

end Json

/-- For a reader that makes nothing of the empty object it does not matter that this is left out. -/
theorem Body.bind_filled? {α : Type} {read : Json → Option α} (nothing : read (.obj []) = none)
    (json : Json) (slot : Slot) :
    (filled? json slot).bind read = (json.member? slot.name).bind read := by
  -- A slot is filled when its member is there and is not the empty object.
  rw [filled?]
  cases json.member? slot.name with
  | none => rfl
  | some value =>
    -- The empty object is passed over, or read as nothing.
    by_cases empty : value = .obj []
    · rw [empty, Option.bind_some, nothing]
      rfl
    · have kept : value.isEmptyObject = false :=
        Bool.eq_false_iff.mpr (mt Json.isEmptyObject_iff.mp empty)
      simp [Option.filter, kept]

/-- No value is read as the empty predicate. -/
theorem Predicate.ofJson?_ne_empty (json : Json) : ofJson? json ≠ some .empty := by
  -- What is read is well-formed, and the empty predicate is not.
  intro read
  cases wellFormed_of_ofJson? json read

/-- Where nothing is empty, a predicate that is missing is told apart from all others by the empty
one in its place. -/
theorem Predicate.getD_empty_inj {first second : Option Predicate} (left : first ≠ some .empty)
    (right : second ≠ some .empty) : first.getD .empty = second.getD .empty ↔ first = second := by
  -- The empty predicate in place of nothing is unlike any that is there, by assumption.
  cases first with
  | none =>
    cases second with
    | none => simp
    | some predicate => simpa [eq_comm] using right
  | some predicate =>
    cases second with
    | none => simpa using left
    | some other => simp

namespace Policy

/-- The value that a document has in a slot of its body. -/
def slotValue? (json : Json) (slot : Slot) : Option Json :=
  (json.member? "policy_object").bind (Json.member? slot.name)

/-- The obligations that are read in a slot, if there are any. -/
def slotObligations? (json : Json) (slot : Slot) : Option Obligations :=
  (slotValue? json slot).bind Obligations.ofJson?

/-- The predicate that is read in a slot, if there is one. -/
def slotPredicate? (json : Json) (slot : Slot) : Option Predicate :=
  (slotValue? json slot).bind Predicate.ofJson?

/-- The body of a document is made of what is read in its four slots. -/
theorem readBody_eq (json : Json) : readBody json =
    ⟨slotObligations? json .obligationsOnDeny, slotObligations? json .obligationsOnGrant,
      (slotPredicate? json .deny).getD .empty, (slotPredicate? json .grant).getD .empty⟩ := by
  -- Everything hangs on the member with the body, without which no slot holds anything.
  unfold readBody slotObligations? slotPredicate? slotValue?
  cases json.member? "policy_object" with
  | none => rfl
  | some body =>
    -- Neither kind of slot makes anything of the empty object.
    have noObligations : Obligations.ofJson? (.obj []) = none := by rfl
    have noPredicate : Predicate.ofJson? (.obj []) = none := by decide
    simp only [Option.map_some, Option.getD_some, Option.bind_some, Body.ofJson,
      Body.bind_filled? noObligations, Body.bind_filled? noPredicate]

/-- No slot is read as the empty predicate. -/
theorem slotPredicate?_ne_empty (json : Json) (slot : Slot) :
    slotPredicate? json slot ≠ some .empty := by
  -- The reader of predicates never makes the empty one.
  intro read
  obtain ⟨value, _, read⟩ := Option.bind_eq_some_iff.mp read
  exact Predicate.ofJson?_ne_empty value read

/-- Two documents are read to have the same body exactly when the same is read in each of their
slots. -/
theorem readBody_eq_iff {a b : Json} : readBody a = readBody b ↔
    (∀ slot ∈ [Slot.obligationsOnDeny, .obligationsOnGrant],
      slotObligations? a slot = slotObligations? b slot) ∧
    ∀ slot ∈ [Slot.deny, .grant], slotPredicate? a slot = slotPredicate? b slot := by
  -- A slot in which no predicate is read and one with the empty predicate cannot be confused.
  have filled (slot : Slot) : (slotPredicate? a slot).getD .empty =
      (slotPredicate? b slot).getD .empty ↔ slotPredicate? a slot = slotPredicate? b slot :=
    Predicate.getD_empty_inj (slotPredicate?_ne_empty a slot) (slotPredicate?_ne_empty b slot)
  rw [readBody_eq, readBody_eq, Body.mk.injEq, filled, filled]
  simp [and_assoc]

variable {a b : Json} {policy : Policy}

/-- When a document is read like a policy, another one with the same hash function and the same cost
is read like it exactly when the same is read in each of its slots, whatever else was edited. -/
theorem ReadsLike.iff_of_same (alike : ReadsLike a policy)
    (hashFunction : b.member? "hash_function" = a.member? "hash_function")
    (cost : b.member? "cost" = a.member? "cost") : ReadsLike b policy ↔
      (∀ slot ∈ [Slot.obligationsOnDeny, .obligationsOnGrant],
        slotObligations? b slot = slotObligations? a slot) ∧
      ∀ slot ∈ [Slot.deny, .grant], slotPredicate? b slot = slotPredicate? a slot := by
  -- The bodies that are read are the same when the slots are, and the other two members are given.
  rw [← readBody_eq_iff, alike.body]
  constructor
  · exact ReadsLike.body
  · intro body
    refine ⟨hashFunction.trans alike.hashFunction, ?_, body⟩
    rw [textMember?, cost]
    exact alike.cost

/-- An edit that leaves values in the slots that look like those before is not noticed. -/
theorem ReadsLike.of_looksLike (alike : ReadsLike a policy)
    (hashFunction : b.member? "hash_function" = a.member? "hash_function")
    (cost : b.member? "cost" = a.member? "cost")
    (slots : ∀ slot, Option.Rel Json.LooksLike (slotValue? b slot) (slotValue? a slot)) :
    ReadsLike b policy := by
  -- Values that look alike have the same readings.
  have same (slot : Slot) : slotObligations? b slot = slotObligations? a slot ∧
      slotPredicate? b slot = slotPredicate? a slot := by
    have values := slots slot
    rw [slotObligations?, slotObligations?, slotPredicate?, slotPredicate?]
    generalize slotValue? b slot = edited at values
    generalize slotValue? a slot = value at values
    cases values with
    | some looks =>
      have readings := looks.readAlike.whole
      exact ⟨congrArg (fun found => found.2.1) readings, congrArg (fun found => found.2.2) readings⟩
    | none => exact ⟨rfl, rfl⟩
  exact (alike.iff_of_same hashFunction cost).mpr
    ⟨fun slot _ => (same slot).1, fun slot _ => (same slot).2⟩

end Policy

end Warrant
