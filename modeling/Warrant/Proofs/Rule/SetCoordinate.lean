import Warrant.Proofs.Rule.Geofence
import Warrant.Proofs.Rule.KnownMembers

/-! Written circles of which one coordinate is replaced: what is read of the others does not change.
-/

namespace Warrant

/-- The name of a coordinate in a written rule. -/
def GeofenceField.key : GeofenceField → String
  | .latitude => "latitude"
  | .longitude => "longitude"
  | .radius => "radius"

/-- The place of a coordinate among the fields of a written rule. -/
def GeofenceField.place : GeofenceField → Nat
  | .latitude => 0
  | .longitude => 1
  | .radius => 2

/-- The draft with another text for a field. -/
def GeofenceDraft.setEntry (draft : GeofenceDraft) (field : GeofenceField) (text : String) :
    GeofenceDraft :=
  match field with
  | .latitude => { draft with latitude := text }
  | .longitude => { draft with longitude := text }
  | .radius => { draft with radius := text }

namespace Document

/-- The members of an object with another value under a key. -/
def setMember (key : Option String) (value : Document) (members : List (Option String × Document)) :
    List (Option String × Document) :=
  members.map fun member => if member.1 = key then (member.1, value) else member

section Members

variable {key : Option String} {value : Document} {members : List (Option String × Document)}

/-- The keys stay where they are. -/
theorem map_fst_setMember (key : Option String) (value : Document)
    (members : List (Option String × Document)) :
    (setMember key value members).map Prod.fst = members.map Prod.fst := by
  -- Whether the value of a member is replaced or not, its key is kept.
  rw [setMember, List.map_map]
  apply List.map_congr_left
  intro member _
  rw [Function.comp_apply]
  split
  · rfl
  · rfl

/-- Members that are picked by their keys are picked before as well as behind. -/
theorem filter_setMember (pick : Option String → Bool) :
    (setMember key value members).filter (fun member => pick member.1) =
      setMember key value (members.filter fun member => pick member.1) := by
  -- By induction on the members, each of which is picked or passed over on both sides.
  induction members with
  | nil => rfl
  | cons member rest ih =>
    -- Whether its value is replaced or not, a member is picked by the key that it keeps.
    have kept : (if member.1 = key then (member.1, value) else member).1 = member.1 := by
      split <;> rfl
    simp only [setMember, List.map_cons, List.filter_cons, kept] at ih ⊢
    split
    · rw [ih, List.map_cons]
    · exact ih

/-- Members without the key are left alone. -/
theorem setMember_eq_self (absent : ∀ member ∈ members, member.1 ≠ key) :
    setMember key value members = members :=
  (List.map_congr_left fun member held => if_neg (absent member held)).trans (List.map_id _)

/-- The value under the key is another one, if there is one. -/
theorem lookup_setMember_self :
    (setMember key value members).lookup key = (members.lookup key).map fun _ => value := by
  -- By induction on the members, up to the first that has the key.
  induction members with
  | nil => rfl
  | cons member rest ih =>
    obtain ⟨name, old⟩ := member
    by_cases same : name = key
    · simp [setMember, same]
    · have other : (key == name) = false := beq_false_of_ne (Ne.symm same)
      simp only [setMember, List.map_cons, same, if_false, List.lookup_cons, other] at ih ⊢
      exact ih

/-- The values under other keys stay. -/
theorem lookup_setMember_of_ne {name : Option String} (different : name ≠ key) :
    (setMember key value members).lookup name = members.lookup name := by
  -- A member whose value is replaced has the key, and is not the one that is looked for.
  induction members with
  | nil => rfl
  | cons member rest ih =>
    obtain ⟨found, old⟩ := member
    by_cases same : found = key
    · have other : (name == key) = false := beq_false_of_ne different
      simp only [setMember, List.map_cons, same, if_true, List.lookup_cons, other] at ih ⊢
      exact ih
    · simp only [setMember, List.map_cons, same, if_false, List.lookup_cons] at ih ⊢
      rw [ih]

/-- Whether members make a record depends on their keys. -/
theorem isRecord_setMember (strangers : Strangers) (names : List String) :
    isRecord strangers names (setMember key value members) = isRecord strangers names members := by
  -- The members that are counted for a name are those with it as their key.
  have byKeys : ∀ list : List (Option String × Document), isRecord strangers names list =
      ((list.map Prod.fst).all (fun key =>
        key.any fun name => strangers = .ignored || names.contains name) &&
      names.all fun name => (list.map Prod.fst).count (some name) ≤ 1) := by
    intro list
    simp only [isRecord, List.all_map, count_key]
    rfl
  rw [byKeys, byKeys, map_fst_setMember]

/-- An item that is set is the slot of its place, unless the items end before it. -/
theorem map_some_set (value : Document) (items : List Document) (place spare : Nat) :
    (items.set place value).map some ++ List.replicate spare none =
      (items.map some ++ List.replicate spare none).modify place
        (Option.map fun _ => value) := by
  -- The items and the place go down together, until one of them is used up.
  induction items generalizing place with
  | nil =>
    -- There is nothing to set, and an empty slot stays empty.
    refine List.ext_getElem? fun i => ?_
    rw [List.getElem?_modify]
    simp only [List.set_nil, List.map_nil, List.nil_append, List.getElem?_replicate]
    split <;> split <;> rfl
  | cons item rest ih =>
    cases place with
    | zero => rfl
    | succ place =>
      simp only [List.set_cons_succ, List.map_cons, List.cons_append, List.modify_succ_cons]
      rw [ih]

/-- The nesting of an object depends on that of the value that is set. -/
theorem depthMembers_setMember {other : Document} (same : value.depth = other.depth) :
    depthMembers (setMember key value members) = depthMembers (setMember key other members) := by
  -- Every member keeps its depth, or has that of the value on both sides.
  induction members with
  | nil => rfl
  | cons member rest ih =>
    obtain ⟨name, old⟩ := member
    simp only [setMember, List.map_cons] at ih ⊢
    by_cases found : name = key
    · simp only [found, if_true, depthMembers, ih, same]
    · simp only [found, if_false, depthMembers, ih]

/-- The nesting of a list depends on that of the item that is set. -/
theorem depthItems_set {other : Document} (same : value.depth = other.depth) (items : List Document)
    (place : Nat) : depthItems (items.set place value) = depthItems (items.set place other) := by
  -- The items and the place go down together, until the item is reached.
  induction items generalizing place with
  | nil => rfl
  | cons item rest ih =>
    cases place with
    | zero => simp only [List.set_cons_zero, depthItems, same]
    | succ place => simp only [List.set_cons_succ, depthItems, ih]

end Members

variable {field : GeofenceField} {value other : Document}

/-- Fields of a rule with another value for a coordinate, under its name or at its place. -/
def setCoordinate (fields : Document) (field : GeofenceField) (value : Document) : Document :=
  match fields with
  | .record members => .record (setMember (some field.key) value members)
  | .list items => .list (items.set field.place value)
  | fields => fields

/-- A written rule with another value for a coordinate, which stands beside the kind of the rule. -/
def withCoordinate (document : Document) (field : GeofenceField) (value : Document) : Document :=
  match document with
  | .list (tag :: items) => .list (tag :: items.set field.place value)
  | document => document.setCoordinate field value

/-- The tag of a rule is left alone when a coordinate is set. -/
theorem untag?_withCoordinate (document : Document) :
    (document.withCoordinate field value).untag? "kind" =
      (document.untag? "kind").map fun (tag, fields) => (tag, fields.setCoordinate field value) := by
  -- In an object the tag is found by its key, and in a list it is the first item.
  cases document with
  | record members =>
    -- No coordinate is named like the tag.
    have noKind : some "kind" ≠ some field.key := by cases field <;> decide
    have tags : setMember (some field.key) value
        (members.filter fun member => member.1 = some "kind") =
        members.filter fun member => member.1 = some "kind" := by
      apply setMember_eq_self
      intro member held
      have isKind := of_decide_eq_true (List.mem_filter.mp held).2
      rw [isKind]
      exact noKind
    simp only [withCoordinate, setCoordinate, untag?,
      filter_setMember fun key => decide (key = some "kind"),
      filter_setMember fun key => decide (key ≠ some "kind"), tags]
    split <;> rfl
  | list items =>
    cases items with
    | nil => rfl
    | cons tag items => rfl
  | _ => rfl

/-- A coordinate that is set is the field of its place, if there is such a field. -/
theorem fields?_setCoordinate (document : Document) :
    (document.setCoordinate field value).fields? .refused RuleSpec.Kind.location.fields =
      (document.fields? .refused RuleSpec.Kind.location.fields).map fun slots =>
        slots.modify field.place (Option.map fun _ => value) := by
  -- A coordinate is set by its key in an object, and by its place in a list.
  cases document with
  | record members =>
    rw [setCoordinate, fields?, fields?, isRecord_setMember]
    split
    · -- The names of the four fields are different ones.
      cases field <;>
        simp [RuleSpec.Kind.fields, GeofenceField.key, GeofenceField.place, lookup_setMember_self,
          lookup_setMember_of_ne]
    · rfl
  | list items =>
    rw [setCoordinate, fields?, fields?, List.length_set]
    split
    · rw [map_some_set, Option.map_some]
    · rfl
  | _ => rfl

/-- Values that nest equally deep are set at equal depth. -/
theorem depth_withCoordinate (document : Document) (same : value.depth = other.depth) :
    (document.withCoordinate field value).depth = (document.withCoordinate field other).depth := by
  -- Depth is a matter of the members or of the items, to which the lemmas above apply.
  cases document with
  | record members => simp only [withCoordinate, setCoordinate, depth, depthMembers_setMember same]
  | list items =>
    cases items with
    | nil => rfl
    | cons tag items => simp only [withCoordinate, depth, depthItems, depthItems_set same]
  | _ => rfl

end Document

namespace RuleSpec

/-- Only the kind of circles makes circles. -/
theorem eq_location_of_ofFields? {inner : Document → Option RuleSpec} {kind : Kind}
    {fields : Document} {draft : GeofenceDraft}
    (read : ofFields? inner kind fields = some (.location draft)) : kind = .location := by
  -- Each kind makes what is called like it, whatever its fields hold.
  simp only [ofFields?, Option.bind_eq_bind, Option.bind_eq_some_iff] at read
  obtain ⟨_, _, read⟩ := read
  split at read
  case h_2 => rfl
  case h_5 => cases read
  all_goals simp [Option.bind_eq_some_iff] at read

/-- The draft that is read of the fields of a circle, the last of which may be absent. -/
def draftOf? : List (Option Document) → Option GeofenceDraft
  | [some latitude, some longitude, some radius, unit] => do
    let latitude ← coordinate? latitude
    let longitude ← coordinate? longitude
    let radius ← coordinate? radius
    let unit ← Document.withDefault? .kilometers (choice? DistanceUnit.ofName?) unit
    return ⟨latitude, longitude, radius, unit⟩
  | _ => none

/-- A circle is read of its fields. -/
theorem ofFields?_location (inner : Document → Option RuleSpec) (fields : Document) :
    ofFields? inner .location fields =
      ((fields.fields? .refused Kind.location.fields).bind draftOf?).map .location := by
  -- The four fields of a circle are all that its kind knows, and a draft is made of them.
  rw [ofFields?]
  cases fields.fields? .refused Kind.location.fields with
  | none => rfl
  | some slots =>
    simp only [Option.bind_some, Option.bind_eq_bind]
    split
    case h_2 =>
      simp only [draftOf?, Option.bind_eq_bind, Option.map_bind, Function.comp_def]
      rfl
    case h_5 _ _ _ other _ _ =>
      rw [draftOf?, Option.map_none]
      exact fun _ _ _ _ => other _ _ _ _ rfl
    all_goals contradiction

/-- A draft is read of three coordinates, with a unit that is known or absent. -/
theorem draftOf?_eq_some_iff {slots : List (Option Document)} {draft : GeofenceDraft} :
    draftOf? slots = some draft ↔ ∃ latitude longitude radius unit,
      slots = [some latitude, some longitude, some radius, unit] ∧
      coordinate? latitude = some draft.latitude ∧ coordinate? longitude = some draft.longitude ∧
      coordinate? radius = some draft.radius ∧
      Document.withDefault? .kilometers (choice? DistanceUnit.ofName?) unit = some draft.unit := by
  -- The four slots are read in their order, and the reader stops at the first that fails.
  constructor
  · intro read
    fun_cases draftOf? slots with
    | case1 latitude longitude radius unit =>
      simp only [draftOf?, Option.bind_eq_bind, Option.bind_eq_some_iff] at read
      obtain ⟨_, first, _, second, _, third, _, known, made⟩ := read
      cases made
      exact ⟨latitude, longitude, radius, unit, rfl, first, second, third, known⟩
    | case2 _ other =>
      rw [draftOf?] at read
      · cases read
      · exact other
  · intro ⟨latitude, longitude, radius, unit, shape, first, second, third, known⟩
    rw [shape, draftOf?, first, second, third, known]
    rfl

/-- A draft that is read of some fields has the text of each coordinate, and with another value for
a coordinate it has the text of that value there, if it has one. -/
theorem draftOf?_modify {slots : List (Option Document)} {field : GeofenceField}
    {value : Document} (other : Document) {draft : GeofenceDraft}
    (read : draftOf? (slots.modify field.place (Option.map fun _ => value)) = some draft) :
    coordinate? value = some (draft.entry field) ∧
      draftOf? (slots.modify field.place (Option.map fun _ => other)) =
        (coordinate? other).map (draft.setEntry field) := by
  -- The draft fixes the shape of the slots, of which there must have been four before as well.
  obtain ⟨latitude, longitude, radius, unit, shape, first, second, third, known⟩ :=
    draftOf?_eq_some_iff.mp read
  have count := congrArg List.length shape
  rw [List.length_modify] at count
  match slots, count with
  | [_, _, _, _], _ =>
    -- There was a value in the slot of the field, and the other slots are those of the draft.
    cases field with
    | latitude =>
      simp only [GeofenceField.place, List.modify_zero_cons, List.cons.injEq,
        Option.map_eq_some_iff, exists_and_right, and_true] at shape
      obtain ⟨⟨⟨_, rfl⟩, rfl⟩, rfl, rfl, rfl⟩ := shape
      refine ⟨first, ?_⟩
      simp only [draftOf?, GeofenceField.place, List.modify_zero_cons, Option.map_some, second,
        third, known]
      cases coordinate? other <;> rfl
    | longitude =>
      simp only [GeofenceField.place, List.modify_succ_cons, List.modify_zero_cons,
        List.cons.injEq, Option.map_eq_some_iff, exists_and_right, and_true] at shape
      obtain ⟨rfl, ⟨⟨_, rfl⟩, rfl⟩, rfl, rfl⟩ := shape
      refine ⟨second, ?_⟩
      simp only [draftOf?, GeofenceField.place, List.modify_succ_cons, List.modify_zero_cons,
        Option.map_some, first, third, known]
      cases coordinate? other <;> rfl
    | radius =>
      simp only [GeofenceField.place, List.modify_succ_cons, List.modify_zero_cons,
        List.cons.injEq, Option.map_eq_some_iff, exists_and_right, and_true] at shape
      obtain ⟨rfl, rfl, ⟨⟨_, rfl⟩, rfl⟩, rfl⟩ := shape
      refine ⟨third, ?_⟩
      simp only [draftOf?, GeofenceField.place, List.modify_succ_cons, List.modify_zero_cons,
        Option.map_some, first, second, known]
      cases coordinate? other <;> rfl

/-- A document of a circle has the text of each coordinate, and with another value for a coordinate
it has the text of that value there, if it has one. -/
theorem read?_withCoordinate {levels : Nat} {nested : Bool} {document value : Document}
    (other : Document) {field : GeofenceField} {draft : GeofenceDraft}
    (read : read? levels nested (document.withCoordinate field value) = some (.location draft)) :
    coordinate? value = some (draft.entry field) ∧
      read? levels nested (document.withCoordinate field other) =
        (coordinate? other).map fun text => .location (draft.setEntry field text) := by
  -- The document is read one level deep, and what stands below it is never looked at.
  cases levels with
  | zero => cases read
  | succ below =>
    rw [read?, Document.untag?_withCoordinate] at read ⊢
    simp only [Option.bind_eq_bind, Option.bind_eq_some_iff, Option.map_eq_some_iff] at read
    obtain ⟨_, ⟨⟨tag, fields⟩, tagged, rfl⟩, kind, known, whole⟩ := read
    -- The kind and the other fields are those of the document in both cases.
    obtain rfl := eq_location_of_ofFields? whole
    -- What the draft is made of are the four slots, if there are any.
    rw [ofFields?_location, Document.fields?_setCoordinate] at whole
    cases found : fields.fields? .refused Kind.location.fields with
    | none =>
      rw [found] at whole
      cases whole
    | some slots =>
      simp only [found, Option.map_some, Option.bind_some, Option.map_eq_some_iff, location.injEq,
        exists_eq_right] at whole
      obtain ⟨text, replaced⟩ := draftOf?_modify other whole
      refine ⟨text, ?_⟩
      simp [tagged, known, ofFields?_location, Document.fields?_setCoordinate, found, replaced,
        Function.comp_def]

/-- A coordinate is replaced by a value that nests as deep, and the rest of the circle is read as
before. -/
theorem ofDocument?_withCoordinate {document value : Document} (other : Document)
    (even : value.depth = other.depth) {field : GeofenceField} {draft : GeofenceDraft}
    (read : ofDocument? (document.withCoordinate field value) = some (.location draft)) :
    coordinate? value = some (draft.entry field) ∧
      ofDocument? (document.withCoordinate field other) =
        (coordinate? other).map fun text => .location (draft.setEntry field text) := by
  rw [ofDocument?, Document.depth_withCoordinate document even] at read
  exact read?_withCoordinate other read

end RuleSpec

end Warrant
