import Warrant.Proofs.Outcome
import Warrant.Proofs.Policy.WellFormed

/-! Bodies whose predicates are empty or well-formed are read back from their values. -/

namespace Warrant

/-- A value has members exactly when the tree has. -/
theorem Json.isEmptyObject_sorted (json : Json) :
    json.sorted.isEmptyObject = json.isEmptyObject := by
  -- An entry never leaves a list empty.
  have entered : ∀ (key : String) (value : Json) (entries : List (String × Json)),
      enter key value entries ≠ [] := by
    intro key value entries empty
    cases entries with
    | nil => simp [enter] at empty
    | cons entry rest =>
      rw [enter] at empty
      split at empty
      · cases empty
      · split at empty <;> cases empty
  -- Sorting enters the members one by one, so that an object with any of them stays one with some.
  cases json with
  | obj members =>
    cases members with
    | nil => rfl
    | cons member rest =>
      obtain ⟨key, value⟩ := member
      rw [sorted, sortedMembers]
      obtain ⟨entry, others, present⟩ := List.exists_cons_of_ne_nil
        (entered key value.sorted (sortedMembers rest))
      rw [present]
      rfl
  | _ => rfl

/-- The empty object is no predicate. -/
theorem Predicate.isEmptyObject_of_ofJson? {json : Json} {predicate : Predicate}
    (read : Predicate.ofJson? json = some predicate) : json.isEmptyObject = false := by
  -- An object without members has no operation, no obligations and no type.
  have nothing : Predicate.ofJson? (.obj []) = none := by decide
  by_contra empty
  rw [Bool.not_eq_false] at empty
  unfold Json.isEmptyObject at empty
  split at empty
  · rw [nothing] at read
    cases read
  · cases empty

namespace Body

/-- A body whose predicates are empty or well-formed. -/
structure WellFormed (body : Body) : Prop where
  deny : body.deny = .empty ∨ body.deny.WellFormed
  grant : body.grant = .empty ∨ body.grant.WellFormed

/-- A member that is there is what stands in it, and nothing when that is the empty object. -/
theorem readSlot_of_member? {α : Type} (read : Json → Option α) {json value : Json} {slot : Slot}
    (found : json.member? slot.name = some value) :
    readSlot read json slot =
      if value.isEmptyObject then .ok none
      else (read value).elim (.error (.malformed slot)) fun content => .ok (some content) := by
  -- The empty object is looked for before the value is read.
  have present : required json slot =
      .ok (if value.isEmptyObject then none else some value) := by
    rw [required, found]
  rw [readSlot, present]
  cases value.isEmptyObject with
  | true => rfl
  | false =>
    rw [if_neg Bool.false_ne_true, if_neg Bool.false_ne_true]
    dsimp only [bind, Except.bind]
    cases read value <;> rfl

/-- A member that the strict reader accepts is read alike by the lenient one. -/
theorem bind_filled?_of_readSlot {α : Type} {read : Json → Option α} {json : Json} {slot : Slot}
    {content : Option α} (accepted : readSlot read json slot = .ok content) :
    (filled? json slot).bind read = content := by
  -- A strict reader accepts the member only when it is there, and then both readers see its value.
  cases found : json.member? slot.name with
  | none =>
    rw [readSlot, required, found] at accepted
    cases accepted
  | some value =>
    -- Both readers see the same value, and take the empty object for nothing.
    rw [readSlot_of_member? read found] at accepted
    rw [filled?, found]
    cases empty : value.isEmptyObject with
    | true =>
      rw [empty] at accepted
      cases accepted
      simp [Option.filter, empty]
    | false =>
      rw [empty] at accepted
      cases part : read value with
      | none =>
        rw [part] at accepted
        cases accepted
      | some other =>
        rw [part] at accepted
        cases accepted
        simp [Option.filter, empty, part]

/-- A value that the strict reader accepts is read as the same body by the lenient one. -/
theorem ofJson_of_ofJsonStrict {json : Json} {body : Body}
    (accepted : ofJsonStrict json = .ok body) : ofJson json = body := by
  -- The strict reader takes the four members one after the other.
  rw [ofJsonStrict] at accepted
  split at accepted
  · cases accepted
  · obtain ⟨obligationsOnDeny, onDeny, accepted⟩ := bind_eq_ok_iff.mp accepted
    obtain ⟨obligationsOnGrant, onGrant, accepted⟩ := bind_eq_ok_iff.mp accepted
    obtain ⟨deny, denying, accepted⟩ := bind_eq_ok_iff.mp accepted
    obtain ⟨grant, granting, accepted⟩ := bind_eq_ok_iff.mp accepted
    cases accepted
    rw [ofJson, bind_filled?_of_readSlot onDeny, bind_filled?_of_readSlot onGrant,
      bind_filled?_of_readSlot denying, bind_filled?_of_readSlot granting]

/-- No object in the value of a body repeats a key. -/
theorem distinctKeys_toJson (body : Body) : body.toJson.DistinctKeys :=
  body.hasPlainKeys_toJson.distinctKeys

/-- Obligations are read back from their member, also when they are left open. -/
theorem readSlot_obligations {json : Json} {slot : Slot} {obligations : Option Obligations}
    (found : json.member? slot.name = some (obligationsToJson obligations).sorted) :
    readSlot Obligations.ofJson? json slot = .ok obligations := by
  -- Open obligations are written as the empty object, which is read as nothing.
  rw [readSlot_of_member? _ found, Json.isEmptyObject_sorted]
  cases obligations with
  | none => rfl
  | some list =>
    -- The list stands under a key of its own.
    have distinct : (Obligations.toJson list).DistinctKeys :=
      (Obligations.hasPlainKeys_toJson list).distinctKeys
    have filled : (Obligations.toJson list).isEmptyObject = false := rfl
    rw [obligationsToJson, filled, Obligations.ofJson?_sorted distinct,
      Obligations.ofJson?_toJson]
    rfl

/-- A predicate that is empty or well-formed is read back from its member. -/
theorem readSlot_predicate {json : Json} {slot : Slot} {predicate : Predicate}
    (formed : predicate = .empty ∨ predicate.WellFormed)
    (found : json.member? slot.name = some predicate.toJson.sorted) :
    ∃ content, readSlot Predicate.ofJson? json slot = .ok content ∧
      content.getD .empty = predicate := by
  -- An empty predicate is the empty object, and any other is read back by its own reader.
  rw [readSlot_of_member? _ found]
  rcases formed with rfl | formed
  · exact ⟨none, by rw [Predicate.toJson]; rfl, rfl⟩
  · -- What is read back is not the empty object.
    have read : Predicate.ofJson? predicate.toJson.sorted = some predicate := by
      rw [Predicate.ofJson?_sorted_toJson, formed.ofJson?_toJson]
    refine ⟨some predicate, ?_, rfl⟩
    rw [Predicate.isEmptyObject_of_ofJson? read, read]
    rfl

/-- The strict reader gives a well-formed body back. -/
theorem WellFormed.ofJsonStrict_toJson {body : Body} (formed : body.WellFormed) :
    ofJsonStrict body.toJson.sorted = .ok body := by
  -- Every member of the value is found under its own name.
  have member : ∀ slot : Slot, body.toJson.sorted.member? slot.name =
      (body.toJson.member? slot.name).map Json.sorted :=
    fun slot => Json.member?_sorted body.distinctKeys_toJson slot.name
  have onDeny := readSlot_obligations (member .obligationsOnDeny)
  have onGrant := readSlot_obligations (member .obligationsOnGrant)
  obtain ⟨deny, denying, sameDeny⟩ := readSlot_predicate formed.deny (member .deny)
  obtain ⟨grant, granting, sameGrant⟩ := readSlot_predicate formed.grant (member .grant)
  have object : body.toJson.sorted.members? ≠ none := by
    rw [toJson, Json.sorted]
    simp [Json.members?]
  rw [ofJsonStrict, if_neg object, onDeny, onGrant, denying, granting]
  change Except.ok (Body.mk _ _ (deny.getD .empty) (grant.getD .empty)) = _
  rw [sameDeny, sameGrant]

/-- The lenient reader gives a well-formed body back. -/
theorem WellFormed.ofJson_toJson {body : Body} (formed : body.WellFormed) :
    ofJson body.toJson.sorted = body :=
  ofJson_of_ofJsonStrict formed.ofJsonStrict_toJson

end Body

end Warrant
