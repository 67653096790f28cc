import Warrant.Proofs.Number.Narrowing
import Warrant.Proofs.Rule.SetCoordinate
import Warrant.Proofs.Rule.Sameness
import Warrant.Proofs.Rule.Written

/-! Coordinates in files, which are written as numbers or as texts. Both spellings of a numeral make
the same circle, with three exceptions: integers that are too wide, zero with a minus, and numerals
whose nearest float is half way between two numbers of 32 bits. -/

namespace Warrant

namespace Numeral

/-- A whole number that is too wide for 64 bits, though not for 128. -/
def IsOverwide (numeral : List Char) : Prop :=
  ∃ n, whole? numeral = some n ∧ isWideInteger n = true ∧ isMachineInteger n = false

/-- Zero as a whole number behind a minus. -/
def IsMinusZero (numeral : List Char) : Prop :=
  whole? numeral = some 0 ∧ numeral.head? = some '-'

instance (numeral : List Char) : Decidable (IsOverwide numeral) :=
  decidable_of_iff ((whole? numeral).any fun n => isWideInteger n && !isMachineInteger n) (by
    simp [IsOverwide, Option.any_eq_true])

instance (numeral : List Char) : Decidable (IsMinusZero numeral) :=
  inferInstanceAs (Decidable (_ ∧ _))

variable {numeral : List Char}

/-- An integer that is too wide has no value in a file. -/
theorem scalar?_of_isOverwide (overwide : IsOverwide numeral) : scalar? numeral = none := by
  -- The numeral stands for an integer that passes the first width and fails the second.
  obtain ⟨n, whole, fits, tooWide⟩ := overwide
  have kept : (whole? numeral).filter isWideInteger = some n := by
    rw [whole, Option.filter_some, if_pos fits]
  simp [scalar?, kept, tooWide]

/-- A whole number is an integer in a file, unless it is too wide or no integer of 128 bits. -/
theorem scalar?_of_whole? {n : Int} (whole : whole? numeral = some n)
    (fits : isWideInteger n = true) (narrow : ¬ IsOverwide numeral) :
    scalar? numeral = some (.int n) := by
  -- What passes the first width and is not too wide passes the second one.
  have machine : isMachineInteger n = true := by
    by_contra tooWide
    exact narrow ⟨n, whole, fits, (Bool.not_eq_true _).mp tooWide⟩
  have kept : (whole? numeral).filter isWideInteger = some n := by
    rw [whole, Option.filter_some, if_pos fits]
  simp [scalar?, kept, machine]

/-- Any other numeral is the nearest float in a file. -/
theorem scalar?_of_toBinary {d : Decimal} {y : Finite binary64}
    (literal : Decimal.read? numeral = some d) (double : d.toBinary binary64 = .finite y)
    (noInteger : ∀ n, whole? numeral = some n → isWideInteger n = false) :
    scalar? numeral = some (.float y) := by
  -- Whole numbers beyond 128 bits are floats like all that are not whole.
  have dropped : (whole? numeral).filter isWideInteger = none := by
    cases whole : whole? numeral with
    | none => rfl
    | some n => simp [noInteger n whole]
  have float : float? numeral = some y := by simp [float?, literal, double]
  rw [scalar?, dropped, float]

end Numeral

namespace RuleSpec

variable {numeral : List Char}

/-- A coordinate that is an integer too wide is not read. -/
theorem coordinate?_of_isOverwide (overwide : Numeral.IsOverwide numeral) :
    coordinate? (.number numeral) = none := by
  simp [coordinate?, Document.scalar?, Numeral.scalar?_of_isOverwide overwide]

/-- A coordinate that is zero with a minus loses the minus. -/
theorem coordinate?_of_isMinusZero (zero : Numeral.IsMinusZero numeral) :
    coordinate? (.number numeral) = some "0" := by
  -- Zero is not too wide, so that it is an integer, which has no sign of its own.
  have narrow : ¬ Numeral.IsOverwide numeral := by
    intro ⟨n, whole, _, tooWide⟩
    rw [zero.1] at whole
    cases whole
    cases tooWide
  have scalar := Numeral.scalar?_of_whole? zero.1 rfl narrow
  simp only [coordinate?, Document.scalar?, scalar]
  rfl

/-- Any other coordinate is put into the digits of the nearest float. -/
theorem coordinate?_of_toBinary {d : Decimal} {y : Finite binary64}
    (literal : Decimal.read? numeral = some d) (double : d.toBinary binary64 = .finite y)
    (narrow : ¬ Numeral.IsOverwide numeral) (notZero : ¬ Numeral.IsMinusZero numeral) :
    coordinate? (.number numeral) = some (String.ofList (y.write .plain)) := by
  -- An integer is put into a float by its own sign and size, and any other number by its digits.
  by_cases integer : ∃ n, Numeral.whole? numeral = some n ∧ Numeral.isWideInteger n = true
  · obtain ⟨n, whole, fits⟩ := integer
    obtain ⟨negative, read, size⟩ := Numeral.read?_of_whole? whole
    rw [literal] at read
    cases read
    -- The sign of the integer is that of the numeral, as zero stands without a minus.
    have sign : decide (n < 0) = negative := by
      cases negative with
      | false =>
        have size : n = n.natAbs := size
        rw [decide_eq_false_iff_not]
        omega
      | true =>
        have size : n = -(n.natAbs : Int) := size
        have nonzero : n ≠ 0 := by
          intro zero
          rw [zero] at whole
          exact notZero ⟨whole, (Decimal.negative_iff_of_read? literal).mp rfl⟩
        rw [decide_eq_true_eq]
        omega
    simp only [coordinate?, Document.scalar?, Numeral.scalar?_of_whole? whole fits narrow, sign,
      double]
    rfl
  · -- What is no integer of 128 bits is a float at once.
    have float := Numeral.scalar?_of_toBinary literal double fun n whole =>
      (Bool.not_eq_true _).mp fun fits => integer ⟨n, whole, fits⟩
    simp [coordinate?, Document.scalar?, float]

/-- A coordinate that is a text is taken as it is. -/
theorem coordinate?_string (text : String) :
    coordinate? (.string (some text)) = some text :=
  rfl

end RuleSpec

namespace GeofenceDraft

variable {draft : GeofenceDraft} {fence : Geofence}

/-- A numeral that is typed into a field is read as the number that is nearest to it. -/
theorem readField_of_read? {numeral : List Char} {d : Decimal} {x : Finite binary32}
    (literal : Decimal.read? numeral = some d) (single : d.toBinary binary32 = .finite x)
    (field : GeofenceField) : readField field (String.ofList numeral) = .ok (.finite x) := by
  -- No character of a numeral is blank, so that trimming the field leaves the numeral as it is.
  have visible : ∀ c ∈ numeral, Text.isBlank c = false :=
    fun c member => Decimal.isBlank_of_read? literal member
  rw [readField_ofList_eq_ok_iff visible, Binary.read?_of_read? literal, single]
  exact ⟨rfl, rfl⟩

/-- With another entry a draft is accepted as the same circle when the entry is read as the number
that the circle has there. -/
theorem validate_setEntry_iff (valid : draft.validate = .ok fence) {field : GeofenceField}
    {text : String} :
    (draft.setEntry field text).validate = .ok fence ↔
      readField field text = .ok (fence.number field) := by
  -- The three entries are read one by one, and the two that were not touched are read as before.
  obtain ⟨latitude, longitude, radius, unit⟩ := validate_eq_ok_iff.mp valid
  rw [validate_eq_ok_iff]
  cases field with
  | latitude => simp [setEntry, Geofence.number, longitude, radius, unit]
  | longitude => simp [setEntry, Geofence.number, latitude, radius, unit]
  | radius => simp [setEntry, Geofence.number, latitude, longitude, unit]

/-- A circle that was typed in is the only constraint with its fields and its predicate. -/
theorem same_iff_of_validate (valid : draft.validate = .ok fence) {constraint : Constraint} :
    constraint.isSame (.location fence) = true ∧
      constraint.predicate = (Constraint.location fence).predicate ↔
        constraint = .location fence := by
  -- The fields are compared as numbers, for which a number that is not finite is not even itself.
  have finite := isFinite_of_validate valid
  constructor
  · intro ⟨same, meaning⟩
    cases constraint with
    | location other =>
      -- The predicate tells the signs, which the comparison of the fields does not.
      have signs := (Geofence.predicate_eq_iff_of_isSame same).mp meaning
      rw [(Geofence.eq_iff_of_isSame same).mpr signs]
    | _ => cases same
  · intro equal
    rw [equal]
    exact ⟨Geofence.isSame_self (finite .latitude) (finite .longitude) (finite .radius), rfl⟩

end GeofenceDraft

namespace RuleSpec

/-- A document builds a rule after so many identifiers were given out. -/
def Builds (count : Nat) (document : Document) (rule : Rule) : Prop :=
  ∃ spec next, ofDocument? document = some spec ∧ spec.toRule count = .ok (rule, next)

/-- A circle is built of a draft that is accepted, under the next identifier. -/
theorem builds_location_iff {count : Nat} {document : Document} {id : RuleId} {fence : Geofence} :
    Builds count document ⟨id, .location fence⟩ ↔ id = freshId count ∧
      ∃ draft, ofDocument? document = some (.location draft) ∧ draft.validate = .ok fence := by
  -- Only the specification of a place makes a circle, and the next identifier is its name.
  constructor
  · intro ⟨spec, next, read, built⟩
    cases spec with
    | time start finish =>
      rw [toRule, bind_eq_ok_iff] at built
      obtain ⟨_, _, made⟩ := built
      cases made
    | location draft =>
      simp only [toRule, bind_eq_ok_iff, mapError_eq_ok_iff] at built
      obtain ⟨_, valid, made⟩ := built
      cases made
      exact ⟨rfl, draft, read, valid⟩
    | cap max => cases built
    | group satisfy rules =>
      obtain ⟨_, _, _, _, made⟩ := toRule_group_eq_ok_iff.mp built
      cases made
  · intro ⟨fresh, draft, read, valid⟩
    refine ⟨_, count + 1, read, ?_⟩
    rw [toRule, valid, fresh]
    rfl

/-- A coordinate that is a number is read unless it is an integer too wide. -/
theorem coordinate?_number_eq_none_iff {d : Decimal} {y : Finite binary64}
    (literal : Decimal.read? numeral = some d) (double : d.toBinary binary64 = .finite y) :
    coordinate? (.number numeral) = none ↔ Numeral.IsOverwide numeral := by
  -- An integer that is too wide has no value, and every other number is written down.
  refine ⟨fun refused => ?_, coordinate?_of_isOverwide⟩
  by_contra narrow
  -- Zero with a minus is read without it, and anything else as its digits.
  by_cases zero : Numeral.IsMinusZero numeral
  · rw [coordinate?_of_isMinusZero zero] at refused
    cases refused
  · rw [coordinate?_of_toBinary literal double narrow zero] at refused
    cases refused

/-- The text that a coordinate is put into is read as the number that its numeral stands for, unless
it is an integer too wide, zero with a minus, or not on the side of its digits. -/
theorem readField_coordinate?_iff {d : Decimal} {y : Finite binary64} {x : Finite binary32}
    (literal : Decimal.read? numeral = some d) (double : d.toBinary binary64 = .finite y)
    (single : d.toBinary binary32 = .finite x) (field : GeofenceField) :
    (∃ text, coordinate? (.number numeral) = some text ∧
      GeofenceDraft.readField field text = .ok (.finite x)) ↔
        ¬ Numeral.IsOverwide numeral ∧ ¬ Numeral.IsMinusZero numeral ∧
          y.KeepsSide binary32 Layout.plain.tie d := by
  -- The three ways in which a number becomes text are taken one by one.
  obtain ⟨sign, nearest⟩ := (Decimal.toBinary_eq_finite_iff (by decide)).mp double
  by_cases overwide : Numeral.IsOverwide numeral
  · rw [coordinate?_of_isOverwide overwide]
    exact iff_of_false nofun fun fits => fits.1 overwide
  by_cases zero : Numeral.IsMinusZero numeral
  · rw [coordinate?_of_isMinusZero zero]
    refine iff_of_false ?_ fun fits => fits.2.1 zero
    -- What is left of zero is read without a minus.
    intro ⟨text, digits, read⟩
    cases digits
    have plain : GeofenceDraft.readField field "0" = .ok (.ofIndex false 0) := by rfl
    rw [plain] at read
    have positive := (Binary.ofIndex_eq_finite_iff.mp (Except.ok.inj read)).1
    have negative := (Decimal.negative_iff_of_read? literal).mpr zero.2
    rw [← ((Decimal.toBinary_eq_finite_iff (by decide)).mp single).1, positive] at negative
    cases negative
  · rw [coordinate?_of_toBinary literal double overwide zero]
    have visible : ∀ c ∈ y.write .plain, Text.isBlank c = false :=
      fun c member => Binary.visible_of_mem_write (x := .finite y) member
    -- Its digits are read in 32 bits, and of the conditions only that on their side is left.
    have kept := Finite.read?_write_iff_keepsSide BinaryFormat.refines_binary64_binary32 .plain
      single nearest
    simp only [Option.some.injEq, exists_eq_left',
      GeofenceDraft.readField_ofList_eq_ok_iff visible, kept]
    simp [overwide, zero, sign, Binary.isFinite]

/-- A coordinate that is written as a number makes the circle of the same text, with fields and a
predicate that are equal, exactly when the number is no integer too wide, no zero with a minus and
on the side of its digits, as every number of at most fifteen digits is. Only an integer too wide is
refused. -/
theorem builds_alike_iff {d : Decimal} {y : Finite binary64} {x : Finite binary32}
    {document : Document} {field : GeofenceField} {count : Nat} {id : RuleId} {fence : Geofence}
    (literal : Decimal.read? numeral = some d) (double : d.toBinary binary64 = .finite y)
    (single : d.toBinary binary32 = .finite x)
    (quoted : Builds count
      (document.withCoordinate field (.string (some (String.ofList numeral))))
      ⟨id, .location fence⟩) :
    fence.number field = .finite x ∧
    ((∃ rule, Builds count (document.withCoordinate field (.number numeral)) rule ∧
        rule.constraint.isSame (.location fence) = true ∧
        rule.predicate = (Constraint.location fence).predicate) ↔
      ¬ Numeral.IsOverwide numeral ∧ ¬ Numeral.IsMinusZero numeral ∧
        y.KeepsSide binary32 Layout.plain.tie d) ∧
    (d.HasDigits 15 → y.KeepsSide binary32 Layout.plain.tie d) ∧
    (ofDocument? (document.withCoordinate field (.number numeral)) = none ↔
      Numeral.IsOverwide numeral) := by
  -- Both spellings stand in the same place of the same draft, and only its one entry differs.
  obtain ⟨fresh, draft, read, valid⟩ := builds_location_iff.mp quoted
  have even : (Document.string (some (String.ofList numeral))).depth =
    (Document.number numeral).depth := rfl
  obtain ⟨text, bare⟩ := ofDocument?_withCoordinate (.number numeral) even read
  have entry : draft.entry field = String.ofList numeral := (Option.some.inj text).symm
  obtain ⟨_, nearest⟩ := (Decimal.toBinary_eq_finite_iff (by decide)).mp double
  -- The text is read as the number with 32 bits that is nearest to it.
  have stands : fence.number field = .finite x := by
    have typed := (GeofenceDraft.validate_eq_ok_iff_entries.mp valid).1 field
    rw [entry, GeofenceDraft.readField_of_read? literal single] at typed
    exact (Except.ok.inj typed).symm
  refine ⟨stands, ?_, fun short => Finite.keepsSide_of_hasDigits short nearest _, ?_⟩
  · rw [← readField_coordinate?_iff literal double single field]
    constructor
    · intro ⟨rule, built, alike⟩
      obtain ⟨other, constraint⟩ := rule
      -- The other rule has the same circle, and so it comes from a draft with the same numbers.
      have same : constraint = .location fence :=
        (GeofenceDraft.same_iff_of_validate valid).mp alike
      rw [same] at built
      obtain ⟨_, again, reread, accepted⟩ := builds_location_iff.mp built
      rw [bare] at reread
      obtain ⟨text, digits, made⟩ := Option.map_eq_some_iff.mp reread
      cases made
      refine ⟨text, digits, ?_⟩
      rw [← stands]
      exact (GeofenceDraft.validate_setEntry_iff valid).mp accepted
    · -- A text that is read as the number of the circle makes the draft of the circle.
      intro ⟨text, digits, typed⟩
      rw [← stands] at typed
      have accepted := (GeofenceDraft.validate_setEntry_iff valid).mpr typed
      refine ⟨⟨id, .location fence⟩, builds_location_iff.mpr ⟨fresh, _, ?_, accepted⟩,
        (GeofenceDraft.same_iff_of_validate valid).mpr rfl⟩
      rw [bare, digits]
      rfl
  · rw [bare, Option.map_eq_none_iff]
    exact coordinate?_number_eq_none_iff literal double

/-- A circle around the origin. -/
def originDocument : Document :=
  .record [(some "kind", .string (some "location")), (some "latitude", .string (some "0")),
    (some "longitude", .string (some "0")), (some "radius", .string (some "1"))]

/-- A circle of one kilometer around a point of the meridian. -/
def meridianCircle (latitude : Binary binary32) : Geofence :=
  ⟨latitude, .ofIndex false 0, .ofIndex false 1065353216, .kilometers⟩

/-- The circle around the origin is moved along the meridian by a latitude that can be read. -/
theorem builds_meridianCircle {value : Document} (flat : value.depth = 0) {text : String}
    (entry : coordinate? value = some text) (latitude : Binary binary32)
    (typed : GeofenceDraft.readField .latitude text = .ok latitude) :
    Builds 0 (originDocument.withCoordinate .latitude value)
      ⟨freshId 0, .location (meridianCircle latitude)⟩ := by
  -- In the draft of the origin the latitude alone is exchanged.
  have origin : ofDocument? (originDocument.withCoordinate .latitude (.string (some "0"))) =
      some (.location ⟨"0", "0", "1", .kilometers⟩) := by rfl
  have even : (Document.string (some "0")).depth = value.depth := flat.symm
  have longitude : GeofenceDraft.readField .longitude "0" = .ok (.ofIndex false 0) := by rfl
  have radius : GeofenceDraft.readField .radius "1" = .ok (.ofIndex false 1065353216) := by rfl
  obtain ⟨_, moved⟩ := ofDocument?_withCoordinate value even origin
  rw [entry] at moved
  exact builds_location_iff.mpr ⟨rfl, _, moved,
    GeofenceDraft.validate_eq_ok_iff.mpr ⟨typed, longitude, radius, rfl⟩⟩

/-- The least whole number that has no 32 bits of its own is rounded alike in both spellings. -/
theorem builds_alike_midpoint :
    let numeral := ['1', '6', '7', '7', '7', '2', '1', '7']
    let fence := meridianCircle (.ofIndex false 1266679808)
    Builds 0 (originDocument.withCoordinate .latitude (.string (some (String.ofList numeral))))
      ⟨freshId 0, .location fence⟩ ∧
    ∃ rule, Builds 0 (originDocument.withCoordinate .latitude (.number numeral)) rule ∧
      rule.constraint.isSame (.location fence) = true ∧
      rule.predicate = (Constraint.location fence).predicate := by
  -- Both readings are computed, and the eight digits settle on which side they lie.
  intro numeral fence
  have literal : Decimal.read? numeral = some ⟨false, 16777217, 0⟩ := by rfl
  have double : Decimal.toBinary binary64 ⟨false, 16777217, 0⟩ =
    .finite ⟨false, ⟨4715268810125344768, by decide⟩⟩ := by decide +kernel
  have single : Decimal.toBinary binary32 ⟨false, 16777217, 0⟩ =
    .finite ⟨false, ⟨1266679808, by decide⟩⟩ := by decide +kernel
  have quoted := builds_meridianCircle rfl (coordinate?_string (String.ofList numeral)) _
    (GeofenceDraft.readField_of_read? literal single .latitude)
  have short : Decimal.HasDigits ⟨false, 16777217, 0⟩ 15 := ⟨16777217, 0, by decide, by rfl⟩
  obtain ⟨_, alike, sides, _⟩ := builds_alike_iff literal double single quoted
  exact ⟨quoted, alike.mpr ⟨by decide, by decide, sides short⟩⟩

/-- The two spellings of a number beside a midpoint build circles with different fields, those of
zero with a minus circles with different predicates, and of those of an integer too wide only the
text is read. All three stand for finite numbers with 32 bits and with 64. -/
theorem builds_differently :
    let text (numeral : String) := originDocument.withCoordinate .latitude (.string (some numeral))
    let number (numeral : String) :=
      originDocument.withCoordinate .latitude (.number numeral.toList)
    (∀ numeral ∈ ["1.0000000596046447", "-0", "18446744073709551616"],
      (Binary.read? binary64 numeral.toList).any Binary.isFinite = true ∧
        (Binary.read? binary32 numeral.toList).any Binary.isFinite = true) ∧
    (∃ a b, Builds 0 (text "1.0000000596046447") a ∧ Builds 0 (number "1.0000000596046447") b ∧
      a.constraint.isSame b.constraint = false ∧ a.predicate ≠ b.predicate) ∧
    (∃ a b, Builds 0 (text "-0") a ∧ Builds 0 (number "-0") b ∧
      a.constraint.isSame b.constraint = true ∧ a.predicate ≠ b.predicate) ∧
    (∃ a, Builds 0 (text "18446744073709551616") a) ∧
      ofDocument? (number "18446744073709551616") = none := by
  intro text number
  -- The text is rounded down to one, and the digits of the midpoint are not.
  have once := builds_meridianCircle rfl (coordinate?_string "1.0000000596046447")
    (.ofIndex false 1065353216) (by rfl)
  have digits : coordinate? (.number "1.0000000596046447".toList) = some "1.0000000596046448" := by
    decide +kernel
  have twice := builds_meridianCircle rfl digits (.ofIndex false 1065353217) (by rfl)
  -- The minus of the text is kept, and the number is read as an integer, which has none.
  have signed := builds_meridianCircle rfl (coordinate?_string "-0") (.ofIndex true 0) (by rfl)
  have unsigned : Numeral.IsMinusZero "-0".toList := by decide
  have bare := builds_meridianCircle rfl (coordinate?_of_isMinusZero unsigned)
    (.ofIndex false 0) (by rfl)
  -- Only as a text the wide integer has a value, which is then rounded.
  have wide := builds_meridianCircle rfl (coordinate?_string "18446744073709551616")
    (.ofIndex false 1602224128) (by rfl)
  exact ⟨by decide +kernel, ⟨_, _, once, twice, by rfl, by decide +kernel⟩,
    ⟨_, _, signed, bare, by rfl, by decide +kernel⟩, ⟨_, wide⟩, by rfl⟩

end RuleSpec

end Warrant
