import Warrant.Proofs.Json.Unordered
import Warrant.Proofs.Json.WrittenOrder

/-! The canonical text is a canonical form: there is one exactly for the values without floats, it
is read back as the value, and two texts have the same one exactly when they say the same. -/

namespace Warrant

namespace Json

/-- What a tree is made of, at any depth. -/
inductive Holds : Json → Json → Prop where
  | self (json : Json) : Holds json json
  | item {part item : Json} {items : List Json} (inside : item ∈ items) (deeper : Holds item part) :
    Holds (.arr items) part
  | member {part : Json} {member : String × Json} {members : List (String × Json)}
    (inside : member ∈ members) (deeper : Holds member.2 part) : Holds (.obj members) part

/-- No number in a tree, at any depth, is a float. -/
def FloatFree (json : Json) : Prop :=
  ∀ value, ¬ json.Holds (.float value)

/-- A tree as it is kept in memory: integers are those of the machine, and keys ascend. -/
structure IsValue (json : Json) : Prop where
  /-- Every integer, at any depth, fits in 64 bits. -/
  fits : ∀ n, json.Holds (.int n) → Numeral.isMachineInteger n = true
  /-- The keys of every object, at any depth, ascend. -/
  ascending : ∀ members, json.Holds (.obj members) → Ascending members

/-- An array is made of itself and of what its items are made of. -/
theorem holds_arr_iff {items : List Json} {part : Json} :
    (Json.arr items).Holds part ↔ part = .arr items ∨ ∃ item ∈ items, item.Holds part := by
  -- A part of an array is reached through one of its items, or is the array.
  constructor
  · intro held
    cases held with
    | self => exact .inl rfl
    | item inside deeper => exact .inr ⟨_, inside, deeper⟩
  · rintro (rfl | ⟨item, inside, deeper⟩)
    · exact .self _
    · exact .item inside deeper

/-- An object is made of itself and of what its members are made of. -/
theorem holds_obj_iff {members : List (String × Json)} {part : Json} :
    (Json.obj members).Holds part ↔
      part = .obj members ∨ ∃ member ∈ members, member.2.Holds part := by
  -- A part of an object is reached through one of its members, or is the object.
  constructor
  · intro held
    cases held with
    | self => exact .inl rfl
    | member inside deeper => exact .inr ⟨_, inside, deeper⟩
  · rintro (rfl | ⟨member, inside, deeper⟩)
    · exact .self _
    · exact .member inside deeper

/-- A tree without items and members is made of itself only. -/
theorem holds_leaf_iff {json part : Json} (noItems : json.items? = none)
    (noMembers : json.members? = none) : json.Holds part ↔ part = json := by
  -- There is nothing through which another part could be reached.
  constructor
  · intro held
    cases held with
    | self => rfl
    | item => cases noItems
    | member => cases noMembers
  · rintro rfl
    exact .self _

/-- An array holds no float when no item does. -/
theorem floatFree_arr_iff {items : List Json} :
    (Json.arr items).FloatFree ↔ ∀ item ∈ items, item.FloatFree := by
  -- The array is no float itself.
  constructor
  · exact fun free item inside value deeper => free value (.item inside deeper)
  · intro each value held
    rcases holds_arr_iff.mp held with same | ⟨item, inside, deeper⟩
    · cases same
    · exact each item inside value deeper

/-- An object holds no float when no member does. -/
theorem floatFree_obj_iff {members : List (String × Json)} :
    (Json.obj members).FloatFree ↔ ∀ member ∈ members, member.2.FloatFree := by
  -- The object is no float itself.
  constructor
  · exact fun free member inside value deeper => free value (.member inside deeper)
  · intro each value held
    rcases holds_obj_iff.mp held with same | ⟨member, inside, deeper⟩
    · cases same
    · exact each member inside value deeper

/-- A tree without items and members is a value unless it is an integer that does not fit. -/
theorem isValue_of_leaf {json : Json} (noItems : json.items? = none)
    (noMembers : json.members? = none)
    (fits : ∀ n, json = .int n → Numeral.isMachineInteger n = true) : json.IsValue := by
  -- The only part to check is the tree itself, which is no object.
  constructor
  · exact fun n held => fits n ((holds_leaf_iff noItems noMembers).mp held).symm
  · intro members held
    rw [← (holds_leaf_iff noItems noMembers).mp held] at noMembers
    cases noMembers

/-- An array is a value when every item is one. -/
theorem isValue_arr_iff {items : List Json} :
    (Json.arr items).IsValue ↔ ∀ item ∈ items, item.IsValue := by
  -- The array is neither an integer nor an object itself.
  constructor
  · intro isValue item inside
    exact ⟨fun n deeper => isValue.fits n (.item inside deeper),
      fun members deeper => isValue.ascending members (.item inside deeper)⟩
  · intro each
    constructor
    · intro n held
      rcases holds_arr_iff.mp held with same | ⟨item, inside, deeper⟩
      · cases same
      · exact (each item inside).fits n deeper
    · intro members held
      rcases holds_arr_iff.mp held with same | ⟨item, inside, deeper⟩
      · cases same
      · exact (each item inside).ascending members deeper

/-- An object is a value when its keys ascend and every member is a value. -/
theorem isValue_obj_iff {members : List (String × Json)} :
    (Json.obj members).IsValue ↔ Ascending members ∧ ∀ member ∈ members, member.2.IsValue := by
  -- The object itself asks for its own keys only.
  constructor
  · intro isValue
    refine ⟨isValue.ascending members (.self _), fun member inside => ?_⟩
    exact ⟨fun n deeper => isValue.fits n (.member inside deeper),
      fun others deeper => isValue.ascending others (.member inside deeper)⟩
  · rintro ⟨ascending, each⟩
    constructor
    · intro n held
      rcases holds_obj_iff.mp held with same | ⟨member, inside, deeper⟩
      · cases same
      · exact (each member inside).fits n deeper
    · intro others held
      rcases holds_obj_iff.mp held with same | ⟨member, inside, deeper⟩
      · cases same
        exact ascending
      · exact (each member inside).ascending others deeper

/-- The value of a member of a value is a value. -/
theorem IsValue.of_lookup {members : List (String × Json)} {key : String} {value : Json}
    (whole : (Json.obj members).IsValue) (found : members.lookup key = some value) :
    value.IsValue :=
  (isValue_obj_iff.mp whole).2 _ (mem_of_lookup_eq_some found)

/-- The search for a float finds none exactly when the tree holds none. -/
theorem firstFloat?_eq_none_iff (json : Json) : json.firstFloat? = none ↔ json.FloatFree := by
  -- By induction on the tree, whose parts are itself and the parts of its items and members.
  induction json using induction with
  | null | bool _ | int _ | str _ =>
    refine iff_of_true (by simp [firstFloat?]) fun value held => ?_
    cases (holds_leaf_iff rfl rfl).mp held
  | float value =>
    exact iff_of_false (by simp [firstFloat?]) fun free => free value (.self _)
  | arr items each =>
    rw [firstFloat?, firstFloatItem?_eq_none_iff, floatFree_arr_iff]
    exact forall₂_congr each
  | obj members each =>
    rw [firstFloat?, firstFloatMember?_eq_none_iff, floatFree_obj_iff]
    exact forall₂_congr each

/-- A value is its own value. -/
theorem IsValue.sorted_eq {json : Json} (isValue : json.IsValue) : json.sorted = json := by
  -- By induction on the value: items keep their places, and members stand in key order.
  induction json using induction with
  | null | bool _ | int _ | float _ | str _ => simp [sorted]
  | arr items each =>
    rw [isValue_arr_iff] at isValue
    rw [sorted, sortedItems_eq_map,
      List.map_congr_left fun item inside => each item inside (isValue item inside), List.map_id']
  | obj members each =>
    rw [isValue_obj_iff] at isValue
    -- The members are their own values, and they stand in key order already.
    have same : members.map (Prod.map id sorted) = members := by
      refine (List.map_congr_left fun member inside => ?_).trans members.map_id
      exact congrArg (Prod.mk member.1) (each member inside (isValue.2 member inside))
    rw [sorted, sortedMembers_eq_enterAll, same, isValue.1.enterAll_eq]

/-- A value repeats no key. -/
theorem IsValue.distinctKeys {json : Json} (isValue : json.IsValue) : json.DistinctKeys := by
  -- Ascending keys are distinct, at every depth.
  induction json using induction with
  | null | bool _ | int _ | float _ | str _ => simp [DistinctKeys]
  | arr items each =>
    rw [isValue_arr_iff] at isValue
    rw [DistinctKeys, itemsDistinctKeys_iff]
    exact fun item inside => each item inside (isValue item inside)
  | obj members each =>
    rw [isValue_obj_iff] at isValue
    rw [DistinctKeys, membersDistinctKeys_iff]
    exact ⟨isValue.1.nodup, fun member inside => each member inside (isValue.2 member inside)⟩

/-- A value without floats is exact. -/
theorem IsValue.isExact {json : Json} (isValue : json.IsValue) (free : json.FloatFree) :
    json.IsExact := by
  -- The integers fit, and there are no other numbers.
  induction json using induction with
  | null | bool _ | str _ => simp [IsExact]
  | int n => exact isValue.fits n (.self _)
  | float value => exact absurd (.self _) (free value)
  | arr items each =>
    rw [isValue_arr_iff] at isValue
    rw [floatFree_arr_iff] at free
    rw [IsExact, itemsExact_iff]
    exact fun item inside => each item inside (isValue item inside) (free item inside)
  | obj members each =>
    rw [isValue_obj_iff] at isValue
    rw [floatFree_obj_iff] at free
    rw [IsExact, membersExact_iff]
    exact fun member inside => each member inside (isValue.2 member inside) (free member inside)

/-- A tree without floats has a canonical text. -/
theorem FloatFree.canonical_eq {json : Json} (free : json.FloatFree) :
    json.canonical = .ok json.canonicalText :=
  canonical_eq_ok_iff.mpr ⟨(firstFloat?_eq_none_iff json).mpr free, rfl⟩

end Json

/-- A numeral stands for integers of the machine only. -/
theorem Numeral.isMachineInteger_of_integer? {numeral : List Char} {n : Int}
    (whole : integer? numeral = some n) : isMachineInteger n = true := by
  -- The check of the size comes before the integer is given.
  rw [integer?] at whole
  split at whole
  · obtain ⟨fits, same⟩ := Option.ite_none_right_eq_some.mp whole
    cases same
    exact fits.1
  · cases whole

namespace Document

open Json (isValue_arr_iff isValue_obj_iff)

/-- What documents have one by one is had by all their values. -/
theorem forall_mem_of_forall₂ {α β : Type} {R : α → β → Prop} {P : β → Prop} {as : List α}
    {bs : List β} (listed : List.Forall₂ R as bs) (each : ∀ a ∈ as, ∀ b, R a b → P b) :
    ∀ b ∈ bs, P b := by
  -- By induction on both lists, side by side.
  induction listed with
  | nil => exact fun _ member => absurd member List.not_mem_nil
  | cons related _ ih =>
    obtain ⟨first, behind⟩ := List.forall_mem_cons.mp each
    exact List.forall_mem_cons.mpr ⟨first _ related, ih behind⟩

/-- Every document that has a value has one as it is kept in memory. -/
theorem isValue_of_value? {document : Document} {levels : Nat} {json : Json}
    (value : document.value? levels = some json) : json.IsValue := by
  -- Numerals are checked when they are read, and members are entered in key order.
  induction document using induction generalizing levels json with
  | null | bool _ =>
    cases value
    exact Json.isValue_of_leaf rfl rfl (by simp)
  | number numeral =>
    -- A numeral is an integer of 64 bits, or a float.
    rw [value?, Numeral.value?] at value
    split at value
    · rename_i n whole
      cases value
      refine Json.isValue_of_leaf rfl rfl fun m same => ?_
      cases same
      exact Numeral.isMachineInteger_of_integer? whole
    · obtain ⟨_, _, rfl⟩ := Option.map_eq_some_iff.mp value
      exact Json.isValue_of_leaf rfl rfl (by simp)
  | string text =>
    obtain ⟨_, _, rfl⟩ := Option.map_eq_some_iff.mp value
    exact Json.isValue_of_leaf rfl rfl (by simp)
  | list items each =>
    -- The items are values by the induction.
    obtain ⟨inner, values, rfl, listed, rfl⟩ := value?_list_eq_some_iff.mp value
    rw [isValue_arr_iff]
    exact forall_mem_of_forall₂ listed fun item inside _ found => each item inside found
  | record members each =>
    -- Entering puts the keys in order, and no value enters that a member does not have.
    obtain ⟨inner, entries, rfl, listed, rfl⟩ := value?_record_eq_some_iff.mp value
    rw [isValue_obj_iff]
    refine ⟨ascending_enterAll entries, fun entry entered => ?_⟩
    exact forall_mem_of_forall₂ (P := fun entry => entry.2.IsValue) listed
      (fun member inside _ found => each member inside found.2) entry (mem_enterAll entered)

end Document

namespace Json

/-- A text with the document that it is read as and its value: no object repeats a key, and no
number is a float. -/
structure Reading (text : String) (document : Document) (value : Json) : Prop where
  /-- The grammar accepts the text. -/
  read : Document.read? text.toList = some document
  /-- The text has a value. -/
  parsed : parse? text = some value
  /-- The members of a record have different keys, however these are spelled. -/
  distinct : document.DistinctKeys
  /-- All numbers are integers. -/
  floatFree : value.FloatFree

/-- The document of a text has the value of the text. -/
theorem Reading.value {text : String} {document : Document} {value : Json}
    (reading : Reading text document value) : document.value? maxDepth = some value := by
  have parsed := reading.parsed
  rwa [parse?, reading.read, Option.bind_some] at parsed

/-- The canonical text is a canonical form. A tree has one exactly when it holds no float, a value
that does not nest too deep is read back from its own, and two texts have the same one exactly when
they have the same value, which is when they say the same apart from the order of members. -/
theorem canonical_form :
    (∀ json : Json, (∃ text, json.canonical = .ok text) ↔ json.FloatFree) ∧
      (∀ json : Json, json.IsValue → json.FloatFree → json.depth ≤ maxDepth →
        ∃ text, json.canonical = .ok text ∧ parse? (String.ofList text) = some json) ∧
      ∀ (s t : String) (d e : Document) (v w : Json), Reading s d v → Reading t e w →
        ∃ a b, v.canonical = .ok a ∧ w.canonical = .ok b ∧ (a = b ↔ v = w) ∧
          (a = b ↔ d.Alike e) := by
  -- Which trees have a text, how it is read back, and which readings share one.
  refine ⟨fun json => ?_, fun json isValue free fits => ?_, fun s t d e v w left right => ?_⟩
  · -- The search for a float is what decides.
    rw [← firstFloat?_eq_none_iff]
    constructor
    · rintro ⟨text, ok⟩
      exact (canonical_eq_ok_iff.mp ok).1
    · exact fun none => ⟨json.canonicalText, canonical_eq_ok_iff.mpr ⟨none, rfl⟩⟩
  · -- A value is in key order already, so that sorting it changes nothing.
    refine ⟨json.canonicalText, free.canonical_eq, ?_⟩
    rw [parse?_canonicalText (isValue.isExact free) isValue.distinctKeys fits, isValue.sorted_eq]
  · -- What was read is in key order, so that the texts determine it.
    have leftValue := Document.isValue_of_value? left.value
    have rightValue := Document.isValue_of_value? right.value
    have same : v.canonicalText = w.canonicalText ↔ v = w := by
      refine ⟨fun same => ?_, congrArg canonicalText⟩
      have values := sorted_eq_of_canonicalText_eq
        ⟨leftValue.isExact left.floatFree, leftValue.distinctKeys⟩
        ⟨rightValue.isExact right.floatFree, rightValue.distinctKeys⟩ same
      rwa [leftValue.sorted_eq, rightValue.sorted_eq] at values
    refine ⟨v.canonicalText, w.canonicalText, left.floatFree.canonical_eq,
      right.floatFree.canonical_eq, same, same.trans ?_⟩
    exact d.showsAlike left.distinct right.distinct left.value right.value

/-- Members in either order and a key with an escape make one value. -/
theorem canonical_form_reordered : ∃ (d e : Document) (v : Json),
    Reading "\x7b\"b\":1,\"a\":[]\x7d" d v ∧ Reading "\x7b\"\\u0061\":[ ], \"b\":1\x7d" e v ∧
      d.Alike e ∧ ∃ text, v.canonical = .ok text ∧ parse? (String.ofList text) = some v := by
  -- Both texts have the same value, so that they have the same canonical text.
  have free : (Json.obj [("a", .arr []), ("b", .int 1)]).FloatFree :=
    (firstFloat?_eq_none_iff _).mp rfl
  -- The two texts are read as two documents, with their members in the order of the texts.
  have readFirst : Document.read? "\x7b\"b\":1,\"a\":[]\x7d".toList =
      some (.record [(some "b", .number ['1']), (some "a", .list [])]) := by
    simp only [String.reduceToList]
    rfl
  have readSecond : Document.read? "\x7b\"\\u0061\":[ ], \"b\":1\x7d".toList =
      some (.record [(some "a", .list []), (some "b", .number ['1'])]) := by
    simp only [String.reduceToList]
    rfl
  -- Neither document repeats a key, and both have the one value.
  have first : Reading "\x7b\"b\":1,\"a\":[]\x7d"
      (.record [(some "b", .number ['1']), (some "a", .list [])])
      (.obj [("a", .arr []), ("b", .int 1)]) := by
    refine ⟨readFirst, ?_, ?_, free⟩
    · rw [parse?, readFirst]
      rfl
    · simp [Document.DistinctKeys, Document.MembersDistinctKeys, Document.ItemsDistinctKeys]
  have second : Reading "\x7b\"\\u0061\":[ ], \"b\":1\x7d"
      (.record [(some "a", .list []), (some "b", .number ['1'])])
      (.obj [("a", .arr []), ("b", .int 1)]) := by
    refine ⟨readSecond, ?_, ?_, free⟩
    · rw [parse?, readSecond]
      rfl
    · simp [Document.DistinctKeys, Document.MembersDistinctKeys, Document.ItemsDistinctKeys]
  -- The general result gives the one canonical text, and the way back from it.
  have isValue := Document.isValue_of_value? first.value
  obtain ⟨_, readBack, unordered⟩ := canonical_form
  obtain ⟨a, b, left, right, _, alike⟩ := unordered _ _ _ _ _ _ first second
  have same : a = b := by simpa [left] using right
  exact ⟨_, _, _, first, second, alike.mp same, readBack _ isValue free (by decide)⟩

end Json

end Warrant
