import Warrant.Proofs.FirstFault
import Warrant.Proofs.Policy.RoundTrip

/-! The strict reader of bodies and the lenient one: what the strict one accepts the lenient one
reads alike, and where the lenient one puts something else in a slot the strict one complains about
the first slot in which it does. -/

namespace Warrant

/-- The empty object is recognized. -/
theorem Json.isEmptyObject_iff {json : Json} : json.isEmptyObject = true ↔ json = .obj [] := by
  -- The test is a match on the one shape.
  constructor
  · intro empty
    unfold Json.isEmptyObject at empty
    split at empty
    · rfl
    · cases empty
  · rintro rfl
    rfl

namespace Slot

/-- The slots in the order in which they are read. -/
def all : List Slot := [.obligationsOnDeny, .obligationsOnGrant, .deny, .grant]

/-- A value is well-formed for a slot: two slots hold obligations, and the other two a predicate. -/
def Admits : Slot → Json → Prop
  | .obligationsOnDeny, value => ∃ list, Obligations.ofJson? value = some list
  | .obligationsOnGrant, value => ∃ list, Obligations.ofJson? value = some list
  | .deny, value => ∃ predicate, Predicate.ofJson? value = some predicate
  | .grant, value => ∃ predicate, Predicate.ofJson? value = some predicate

/-- What is at fault with a slot of a value. -/
inductive Offends (json : Json) (slot : Slot) : BodyFault → Prop where
  /-- The slot is not there. -/
  | missing (absent : json.member? slot.name = none) : Offends json slot (.missing slot)
  /-- What stands in the slot is neither the empty object nor well-formed for it. -/
  | malformed {value : Json} (found : json.member? slot.name = some value)
    (filled : value ≠ .obj []) (rejected : ¬ slot.Admits value) :
    Offends json slot (.malformed slot)

/-- What stands in a slot: nothing when it is the empty object, and else what is read of it. -/
inductive Shows {α : Type} (slot : Slot) (read : Json → Option α) (json : Json) :
    Option α → Prop where
  /-- The empty object stands for nothing. -/
  | nothing (found : json.member? slot.name = some (.obj [])) : Shows slot read json none
  /-- Anything else stands for what is read of it. -/
  | content {value : Json} {content : α} (found : json.member? slot.name = some value)
    (filled : value ≠ .obj []) (part : read value = some content) :
    Shows slot read json (some content)

/-- A fault names its slot. -/
theorem Offends.message {slot : Slot} {json : Json} {fault : BodyFault}
    (offends : slot.Offends json fault) : ∃ words, fault.message = words ++ slot.name := by
  cases offends with
  | missing absent => exact ⟨"missing ", rfl⟩
  | malformed found filled rejected => exact ⟨"malformed ", rfl⟩

/-- Every slot is read. -/
theorem mem_all (slot : Slot) : slot ∈ all := by
  cases slot <;> simp [all]

end Slot

namespace Body

open Slot (Offends Shows)

section

variable {α : Type} {read : Json → Option α} {json : Json} {slot : Slot}

/-- A slot that is not there is missing. -/
theorem readSlot_of_absent (absent : json.member? slot.name = none) :
    readSlot read json slot = .error (.missing slot) := by
  rw [readSlot, required, absent]
  rfl

/-- The empty object in a slot stands for nothing. -/
theorem readSlot_of_empty (found : json.member? slot.name = some (.obj [])) :
    readSlot read json slot = .ok none := by
  rw [readSlot_of_member? read found]
  rfl

/-- Anything else in a slot has to be read. -/
theorem readSlot_of_filled {value : Json} (found : json.member? slot.name = some value)
    (filled : value ≠ .obj []) : readSlot read json slot =
      (read value).elim (.error (.malformed slot)) fun content => .ok (some content) := by
  rw [readSlot_of_member? read found, if_neg (mt Json.isEmptyObject_iff.mp filled)]

/-- The strict reader gives what stands in a slot. -/
theorem readSlot_eq_ok_iff {content : Option α} :
    readSlot read json slot = .ok content ↔ slot.Shows read json content := by
  -- The reader tells a slot that is absent, one with the empty object and all others apart.
  constructor
  · intro accepted
    cases found : json.member? slot.name with
    | none =>
      rw [readSlot_of_absent found] at accepted
      cases accepted
    | some value =>
      -- The empty object shows nothing, and any other value what is read of it.
      by_cases empty : value = .obj []
      · subst empty
        rw [readSlot_of_empty found] at accepted
        cases accepted
        exact .nothing found
      · rw [readSlot_of_filled found empty] at accepted
        cases part : read value with
        | none =>
          rw [part] at accepted
          cases accepted
        | some other =>
          rw [part] at accepted
          cases accepted
          exact .content found empty part
  · intro shown
    cases shown with
    | nothing found => exact readSlot_of_empty found
    | content found filled part =>
      rw [readSlot_of_filled found filled, part]
      rfl

/-- The strict reader complains about a slot that is at fault. -/
theorem readSlot_eq_error_iff
    (admits : ∀ value, slot.Admits value ↔ ∃ content, read value = some content)
    {fault : BodyFault} : readSlot read json slot = .error fault ↔ slot.Offends json fault := by
  constructor
  · -- A slot that is absent or has been read leads to no other complaint.
    intro failed
    cases found : json.member? slot.name with
    | none =>
      rw [readSlot_of_absent found] at failed
      cases failed
      exact .missing found
    | some value =>
      by_cases empty : value = .obj []
      · subst empty
        rw [readSlot_of_empty found] at failed
        cases failed
      · rw [readSlot_of_filled found empty] at failed
        cases part : read value with
        | none =>
          rw [part] at failed
          cases failed
          refine .malformed found empty fun admitted => ?_
          obtain ⟨content, some⟩ := (admits value).mp admitted
          rw [part] at some
          cases some
        | some content =>
          rw [part] at failed
          cases failed
  · -- What offends in a slot is the first thing that its reader comes upon.
    intro offends
    cases offends with
    | missing absent => exact readSlot_of_absent absent
    | malformed found filled rejected =>
      have part : read _ = none := Option.eq_none_iff_forall_ne_some.mpr fun content some =>
        rejected ((admits _).mpr ⟨content, some⟩)
      rw [readSlot_of_filled found filled, part]
      rfl

end

/-- A body stands in a value: the value is an object, and every part of the body stands in its
slot. A predicate of which nothing stands there is empty. -/
structure StandsIn (body : Body) (json : Json) : Prop where
  object : json.members? ≠ none
  onDeny : Slot.obligationsOnDeny.Shows Obligations.ofJson? json body.obligationsOnDeny
  onGrant : Slot.obligationsOnGrant.Shows Obligations.ofJson? json body.obligationsOnGrant
  deny : ∃ content, Slot.deny.Shows Predicate.ofJson? json content ∧ content.getD .empty = body.deny
  grant : ∃ content, Slot.grant.Shows Predicate.ofJson? json content ∧
    content.getD .empty = body.grant

variable {json : Json}

/-- The strict reader gives the body that stands in a value. -/
theorem ofJsonStrict_eq_ok_iff {body : Body} :
    ofJsonStrict json = .ok body ↔ body.StandsIn json := by
  -- The reader gives up at once on what is no object.
  rw [ofJsonStrict]
  -- The four slots are read one after the other, and each of them for its own part of the body.
  by_cases object : json.members? = none
  · rw [if_pos object]
    refine iff_of_false (fun accepted => ?_) fun stands => stands.object object
    cases accepted
  · rw [if_neg object]
    simp only [bind_eq_ok_iff, readSlot_eq_ok_iff]
    constructor
    · rintro ⟨onDeny, first, onGrant, second, deny, third, grant, fourth, same⟩
      cases same
      exact ⟨object, first, second, ⟨deny, third, rfl⟩, ⟨grant, fourth, rfl⟩⟩
    · rintro ⟨_, first, second, ⟨deny, third, sameDeny⟩, ⟨grant, fourth, sameGrant⟩⟩
      refine ⟨_, first, _, second, deny, third, grant, fourth, ?_⟩
      rw [sameDeny, sameGrant]
      rfl

/-- The strict reader complains about an object exactly when a slot of it is at fault, and then
about the first one. -/
theorem ofJsonStrict_eq_error_iff (object : json.members? ≠ none) {fault : BodyFault} :
    ofJsonStrict json = .error fault ↔ FirstFault (Offends json) Slot.all fault := by
  -- Each slot is checked for itself before the slots behind it.
  have checked : ∀ {α : Type} {read : Json → Option α} {slot : Slot},
      (∀ value, slot.Admits value ↔ ∃ content, read value = some content) →
      ∀ fault, readSlot read json slot = .error fault ↔
        FirstFault (Offends json) [slot] fault :=
    fun admits _ => (readSlot_eq_error_iff admits).trans firstFault_singleton_iff.symm
  rw [ofJsonStrict, if_neg object, Slot.all]
  refine bind_eq_error_iff_firstFault (checked fun _ => .rfl) fun _ _ => ?_
  refine bind_eq_error_iff_firstFault (checked fun _ => .rfl) fun _ _ => ?_
  refine bind_eq_error_iff_firstFault (checked fun _ => .rfl) fun _ _ => ?_
  refine bind_eq_error_iff_firstFault (checked fun _ => .rfl) fun _ _ => ?_
  refine iff_of_false (fun failed => ?_) not_firstFault_nil
  cases failed

/-- The strict reader complains about a value exactly when it is no object or a slot of it is at
fault. -/
theorem exists_ofJsonStrict_eq_error_iff : (∃ fault, ofJsonStrict json = .error fault) ↔
    json.members? = none ∨ ∃ slot fault, Offends json slot fault := by
  -- Only of an object the slots are looked at, and it has no others than the four.
  by_cases object : json.members? = none
  · rw [ofJsonStrict, if_pos object]
    exact iff_of_true ⟨.notAnObject, rfl⟩ (.inl object)
  · simp only [ofJsonStrict_eq_error_iff object, object, false_or, exists_firstFault_iff]
    exact exists_congr fun slot => and_iff_right (Slot.mem_all slot)

/-- The strict reader complains about a value exactly when the lenient one puts something else in
it than what stands there. -/
theorem exists_ofJsonStrict_eq_error_iff_not_standsIn :
    (∃ fault, ofJsonStrict json = .error fault) ↔ ¬ (ofJson json).StandsIn json := by
  -- What the strict reader accepts is at once what stands in the value and what is read leniently.
  constructor
  · -- A body that stands in the value is accepted.
    rintro ⟨fault, failed⟩ stands
    rw [ofJsonStrict_eq_ok_iff.mpr stands] at failed
    cases failed
  · -- A body that is accepted stands in the value, and is the one that the lenient reader gives.
    intro substituted
    cases outcome : ofJsonStrict json with
    | error fault => exact ⟨fault, rfl⟩
    | ok body =>
      have same := ofJson_of_ofJsonStrict outcome
      exact absurd (same ▸ ofJsonStrict_eq_ok_iff.mp outcome) substituted

/-- The strict reader of bodies and the lenient one agree. What the strict one accepts, the lenient
one reads as the same body. The strict one complains exactly about a value that is no object, or in
which a slot is missing or holds what is neither the empty object nor well-formed for the slot,
which is where the lenient one reads something that does not stand in the value. Of an object it
names the first slot at fault. The value of what the lenient one reads is accepted again. -/
theorem ofJsonStrict_agrees (json : Json) :
    (∀ body, ofJsonStrict json = .ok body → ofJson json = body) ∧
    ((∃ fault, ofJsonStrict json = .error fault) ↔
      json.members? = none ∨ ∃ slot fault, Offends json slot fault) ∧
    ((∃ fault, ofJsonStrict json = .error fault) ↔ ¬ (ofJson json).StandsIn json) ∧
    (json.members? ≠ none → ∀ fault,
      (ofJsonStrict json = .error fault ↔
        FirstFault (Offends json)
          [.obligationsOnDeny, .obligationsOnGrant, .deny, .grant] fault) ∧
      (ofJsonStrict json = .error fault → ∃ slot words, Offends json slot fault ∧
        fault.message = words ++ slot.name)) ∧
    ofJsonStrict (ofJson json).toJson.sorted = .ok (ofJson json) := by
  -- The parts have been proved above, but for the name in the message.
  refine ⟨fun _ => ofJson_of_ofJsonStrict, exists_ofJsonStrict_eq_error_iff,
    exists_ofJsonStrict_eq_error_iff_not_standsIn, fun object fault =>
      ⟨ofJsonStrict_eq_error_iff object, fun failed => ?_⟩,
    (wellFormed_ofJson json).ofJsonStrict_toJson⟩
  -- The complaint is that about the first slot at fault, which it names.
  obtain ⟨_, slot, _, _, offends, _⟩ := (ofJsonStrict_eq_error_iff object).mp failed
  obtain ⟨words, named⟩ := offends.message
  exact ⟨slot, words, offends, named⟩

/-- A value with obligations that cannot be read in its second slot, and with no fourth slot. -/
def raggedValue : Json :=
  .obj [("obligation_deny", .obj []), ("obligation_grant", .obj [("obligations", .str "none")]),
    ("policy_doc", .obj [])]

/-- The strict reader names the second slot of the ragged value, and accepts the value of the empty
body, which the lenient one reads alike. -/
theorem ofJsonStrict_raggedValue :
    (ofJsonStrict empty.toJson.sorted = .ok empty ∧ ofJson empty.toJson.sorted = empty) ∧
    raggedValue.members? ≠ none ∧
    ofJsonStrict raggedValue = .error (.malformed .obligationsOnGrant) ∧
    FirstFault (Offends raggedValue)
      [.obligationsOnDeny, .obligationsOnGrant, .deny, .grant] (.malformed .obligationsOnGrant) ∧
    ∃ slot words, Offends raggedValue slot (.malformed .obligationsOnGrant) ∧
      (BodyFault.malformed .obligationsOnGrant).message = words ++ slot.name := by
  -- Both values are small enough to be read outright.
  have accepted : ofJsonStrict empty.toJson.sorted = .ok empty := by decide +kernel
  have object : raggedValue.members? ≠ none := by decide
  have failed : ofJsonStrict raggedValue = .error (.malformed .obligationsOnGrant) := by decide
  obtain ⟨first, named⟩ := (ofJsonStrict_agrees raggedValue).2.2.2.1 object _
  exact ⟨⟨accepted, (ofJsonStrict_agrees _).1 _ accepted⟩, object, failed, first.mp failed,
    named failed⟩

end Body

end Warrant
