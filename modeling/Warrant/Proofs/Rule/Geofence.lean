import Warrant.Proofs.Number.Bits
import Warrant.Proofs.Number.Numeral
import Warrant.Proofs.Outcome
import Warrant.Rule.Draft

/-! Circles that are typed in: their fields read back as they are shown, and the text by which they
are enforced is made of three finite numbers, unless the radius has more miles than kilometers can
tell. -/

namespace Warrant

namespace Binary

variable {F : BinaryFormat}

/-- A text is a numeral of a finite number: a decimal, and not beyond the end of the grid. -/
def IsNumeral (F : BinaryFormat) (text : List Char) : Prop :=
  (∃ d, Decimal.read? text = some d) ∧ ∃ x, read? F text = some (.finite x)

/-- What is written of a number is a numeral exactly when the number is finite. -/
theorem isNumeral_write_iff (wide : 2 ≤ F.precision) (layout : Layout) {x : Binary F} :
    IsNumeral F (x.write layout) ↔ x.isFinite = true := by
  -- What is written is read back in every case, so the question is which number it was.
  have read := read?_write wide layout x
  constructor
  · intro ⟨_, y, other⟩
    rw [read] at other
    rw [Option.some.inj other]
    rfl
  · intro finite
    cases x with
    | nan => cases finite
    | infinite negative => cases finite
    | finite x => exact ⟨(x.read?_write wide layout).1, x, read⟩

/-- No comma is written of a number. -/
theorem comma_notMem_write (layout : Layout) (x : Binary F) : ',' ∉ x.write layout := by
  -- The characters written of a number are digits and a few marks, and a comma is neither.
  intro member
  rcases mem_write member with digit | mark
  · exact absurd digit (by decide)
  · exact absurd mark (by decide)

/-- No blank is written of a number. -/
theorem visible_of_mem_write {layout : Layout} {x : Binary F} {c : Char}
    (member : c ∈ x.write layout) : Text.isBlank c = false := by
  -- The marks are few, and each of them is visible like a digit.
  have marks : (['.', 'e', '-', '+', 'i', 'n', 'f', 'N', 'a'].all (!Text.isBlank ·)) = true := by
    rfl
  rcases mem_write member with digit | mark
  · exact Text.isBlank_of_isDigit digit
  · exact (Bool.not_eq_true' _).mp (List.all_eq_true.mp marks c mark)

/-- A number is finite and, whatever its sign, not greater than a limit. -/
def isWithin (limit : Finite F) : Binary F → Bool
  | .finite x => x.index ≤ limit.index
  | _ => false

end Binary

namespace DistanceUnit

/-- The most miles of which the kilometers are still a finite number. -/
def longestMiles : Finite binary32 := ⟨false, ⟨2132742728, by decide⟩⟩

/-- The kilometers of so many miles are a finite number exactly up to that limit. -/
theorem isFinite_scale_iff {miles : Finite binary32} :
    ((Binary.finite miles).scale kilometersPerMile).isFinite = true ↔
      miles.index ≤ longestMiles.index := by
  -- Scaling keeps the order of numbers, so it is enough to look at the limit and behind it.
  have wide : 2 ≤ binary32.precision := by decide
  constructor
  · intro finite
    by_contra beyond
    -- Otherwise they would be finite right behind the limit.
    let next : Finite binary32 := ⟨false, ⟨2132742729, by decide⟩⟩
    have order : next.index ≤ miles.index := by
      rw [Fin.le_def] at beyond ⊢
      exact Nat.lt_of_not_le beyond
    have within := Binary.isFinite_scale_of_le wide order finite
    have overflow : ((Binary.finite next).scale kilometersPerMile).isFinite = false := by
      decide +kernel
    rw [overflow] at within
    cases within
  · intro order
    have finite : ((Binary.finite longestMiles).scale kilometersPerMile).isFinite = true := by
      decide +kernel
    -- Up to the limit they lie below those of the limit itself.
    exact Binary.isFinite_scale_of_le wide order finite

/-- A finite radius is enforced as a finite number, unless it is one of too many miles. -/
theorem isFinite_enforced_iff {unit : DistanceUnit} {radius : Binary binary32}
    (finite : radius.isFinite = true) : (unit.enforced radius).isFinite = true ↔
      (unit = .miles → radius.isWithin longestMiles = true) := by
  -- The division does not overflow, whichever unit was multiplied before.
  have wide : 2 ≤ binary32.precision := by decide
  have thousand : 0 < 1000 := by decide
  cases unit with
  | kilometers =>
    rw [enforced, Binary.isFinite_divide wide thousand]
    exact iff_of_true finite nofun
  -- Miles are multiplied first, and there the limit decides.
  | miles =>
    rw [enforced, Binary.isFinite_divide wide thousand]
    -- Of the numbers only the finite ones are admitted.
    cases radius with
    | nan => cases finite
    | infinite negative => cases finite
    | finite miles => simp [Binary.isWithin, isFinite_scale_iff]

end DistanceUnit

namespace Geofence

/-- The text of a circle holds what is written of its three numbers, with commas between. -/
theorem splitOn_value (fence : Geofence) : fence.value.toList.splitOn ',' =
    [fence.latitude.write .field, fence.longitude.write .field,
      (fence.unit.enforced fence.radius).write .field] := by
  -- Each of the three numbers is written without a comma, so the commas between them cut the text.
  rw [value, String.toList_ofList, List.append_assoc, List.cons_append,
    List.splitOn_append_cons_self_of_not_mem (Binary.comma_notMem_write _ _),
    List.splitOn_append_cons_self_of_not_mem (Binary.comma_notMem_write _ _),
    List.splitOn_eq_singleton (Binary.comma_notMem_write _ _)]

/-- The text of a circle can be compared with a place: it is made of three numerals of finite
numbers, with commas between them. -/
def IsUsable (fence : Geofence) : Prop :=
  ∃ latitude longitude radius, fence.value.toList.splitOn ',' = [latitude, longitude, radius] ∧
    ∀ text ∈ [latitude, longitude, radius], Binary.IsNumeral binary32 text

/-- A circle can be compared with a place exactly when the numbers in its text are finite. -/
theorem isUsable_iff {fence : Geofence} : fence.IsUsable ↔
    fence.latitude.isFinite = true ∧ fence.longitude.isFinite = true ∧
      (fence.unit.enforced fence.radius).isFinite = true := by
  -- The parts of the text are the numerals of its numbers, in this order.
  have wide : 2 ≤ binary32.precision := by decide
  constructor
  · intro ⟨latitude, longitude, radius, parts, numerals⟩
    rw [splitOn_value] at parts
    cases parts
    exact ⟨(Binary.isNumeral_write_iff wide .field).mp (numerals _ (by simp)),
      (Binary.isNumeral_write_iff wide .field).mp (numerals _ (by simp)),
      (Binary.isNumeral_write_iff wide .field).mp (numerals _ (by simp))⟩
  · intro ⟨latitude, longitude, radius⟩
    refine ⟨_, _, _, fence.splitOn_value, ?_⟩
    simp only [List.forall_mem_cons, Binary.isNumeral_write_iff wide .field]
    exact ⟨latitude, longitude, radius, nofun⟩

/-- The number that a circle has for a field. -/
def number (fence : Geofence) : GeofenceField → Binary binary32
  | .latitude => fence.latitude
  | .longitude => fence.longitude
  | .radius => fence.radius

end Geofence

namespace GeofenceDraft

/-- A field is accepted when a finite number stands between the blanks at its ends. -/
theorem readField_eq_ok_iff {field : GeofenceField} {input : String} {x : Binary binary32} :
    readField field input = .ok x ↔ Text.trim input.toList ≠ [] ∧
      Binary.read? binary32 (Text.trim input.toList) = some x ∧ x.isFinite = true := by
  -- The reader trims the text, reads a numeral and looks whether its number is finite.
  rw [readField]
  split
  · rename_i blank
    exact iff_of_false nofun fun accepted => accepted.1 blank
  · rename_i visible
    cases read : Binary.read? binary32 (Text.trim input.toList) with
    | none => exact iff_of_false nofun fun accepted => nomatch accepted.2.1
    -- The number that was read is taken exactly when it is finite.
    | some y =>
      dsimp only
      split
      · rename_i finite
        constructor
        · intro same
          cases same
          exact ⟨visible, rfl, finite⟩
        · intro ⟨_, same, _⟩
          cases same
          rfl
      · rename_i notFinite
        constructor
        · intro failed
          cases failed
        · intro ⟨_, same, finite⟩
          cases same
          exact absurd finite notFinite

/-- A draft is accepted as the circle of its fields when all of them are. -/
theorem validate_eq_ok_iff {draft : GeofenceDraft} {fence : Geofence} :
    draft.validate = .ok fence ↔ readField .latitude draft.latitude = .ok fence.latitude ∧
      readField .longitude draft.longitude = .ok fence.longitude ∧
      readField .radius draft.radius = .ok fence.radius ∧ fence.unit = draft.unit := by
  -- The fields are read one after the other, and the first error ends the reading.
  simp only [validate, bind_eq_ok_iff]
  constructor
  · intro ⟨latitude, first, longitude, second, radius, third, whole⟩
    cases whole
    exact ⟨first, second, third, rfl⟩
  · intro ⟨first, second, third, unit⟩
    refine ⟨_, first, _, second, _, third, ?_⟩
    rw [← unit]
    rfl

/-- A field without blanks is read as the finite number that it stands for. -/
theorem readField_ofList_eq_ok_iff {field : GeofenceField} {text : List Char}
    (visible : ∀ c ∈ text, Text.isBlank c = false) {x : Binary binary32} :
    readField field (String.ofList text) = .ok x ↔
      Binary.read? binary32 text = some x ∧ x.isFinite = true := by
  -- Without blanks nothing is trimmed, so that only the numeral is left to ask for.
  rw [readField_eq_ok_iff, String.toList_ofList, Text.trim_of_visible visible]
  constructor
  · intro accepted
    exact accepted.2
  · intro accepted
    refine ⟨?_, accepted⟩
    -- Nothing stands for no number.
    intro none
    rw [none] at accepted
    cases accepted.1

/-- A field that shows a number is read as that number, if it is finite. -/
theorem readField_write_eq_ok_iff {field : GeofenceField} {x y : Binary binary32} :
    readField field (String.ofList (x.write .field)) = .ok y ↔ y = x ∧ x.isFinite = true := by
  -- Two bits of precision are what reading back asks of a format.
  have wide : 2 ≤ binary32.precision := by decide
  -- No blank is written of a number, so that the whole text is given to the reader of numerals.
  have visible : ∀ c ∈ x.write .field, Text.isBlank c = false :=
    fun c member => Binary.visible_of_mem_write member
  rw [readField_ofList_eq_ok_iff visible, Binary.read?_write wide, Option.some.injEq]
  constructor
  · intro ⟨same, finite⟩
    rw [same]
    exact ⟨rfl, finite⟩
  · intro ⟨same, finite⟩
    rw [same]
    exact ⟨rfl, finite⟩

/-- A field that shows a finite number is read as that number. -/
theorem readField_write (field : GeofenceField) {x : Binary binary32}
    (finite : x.isFinite = true) :
    readField field (String.ofList (x.write .field)) = .ok x :=
  readField_write_eq_ok_iff.mpr ⟨rfl, finite⟩

/-- The draft that shows a circle of finite numbers is accepted as that circle. -/
theorem validate_ofGeofence {fence : Geofence} (latitude : fence.latitude.isFinite = true)
    (longitude : fence.longitude.isFinite = true) (radius : fence.radius.isFinite = true) :
    (ofGeofence fence).validate = .ok fence :=
  validate_eq_ok_iff.mpr ⟨readField_write _ latitude, readField_write _ longitude,
    readField_write _ radius, rfl⟩

/-- The text that a draft has for a field. -/
def entry (draft : GeofenceDraft) : GeofenceField → String
  | .latitude => draft.latitude
  | .longitude => draft.longitude
  | .radius => draft.radius

/-- A draft that shows a circle has the digits of its numbers. -/
theorem entry_ofGeofence (fence : Geofence) (field : GeofenceField) :
    (ofGeofence fence).entry field = String.ofList ((fence.number field).write .field) := by
  cases field <;> rfl

/-- A draft is accepted as the circle of the numbers as which its entries are read. -/
theorem validate_eq_ok_iff_entries {draft : GeofenceDraft} {fence : Geofence} :
    draft.validate = .ok fence ↔
      (∀ field, readField field (draft.entry field) = .ok (fence.number field)) ∧
        fence.unit = draft.unit := by
  -- The three fields are gone through, once in each direction.
  rw [validate_eq_ok_iff]
  constructor
  · intro ⟨latitude, longitude, radius, unit⟩
    refine ⟨fun field => ?_, unit⟩
    cases field with
    | latitude => exact latitude
    | longitude => exact longitude
    | radius => exact radius
  · intro ⟨entries, unit⟩
    exact ⟨entries .latitude, entries .longitude, entries .radius, unit⟩

/-- The numbers of a circle that was typed in are finite. -/
theorem isFinite_of_validate {draft : GeofenceDraft} {fence : Geofence}
    (valid : draft.validate = .ok fence) (field : GeofenceField) :
    (fence.number field).isFinite = true := by
  have typed := (validate_eq_ok_iff_entries.mp valid).1 field
  exact (readField_eq_ok_iff.mp typed).2.2

/-- The draft that shows a circle is accepted exactly when the numbers of the circle are finite, and
then as the circle with the same unit and with the same 32 bits in each of its numbers, of which the
eight of the exponent are not all set. -/
theorem validate_ofGeofence_iff (fence : Geofence) :
    ((∃ again, (ofGeofence fence).validate = .ok again) ↔
      ∀ field, (fence.number field).isFinite = true) ∧
    ∀ again, (ofGeofence fence).validate = .ok again ↔ again.unit = fence.unit ∧
      ∀ field, ∃ pattern, (pattern < 2 ^ 32 ∧ pattern / 2 ^ 23 % 2 ^ 8 ≠ 2 ^ 8 - 1) ∧
        (fence.number field).bits? = some pattern ∧ (again.number field).bits? = some pattern := by
  -- Each field is read as the number that it shows, which has a pattern of its own.
  have accepted : ∀ again, (ofGeofence fence).validate = .ok again ↔ again.unit = fence.unit ∧
      ∀ field, ∃ pattern, binary32.IsFinitePattern pattern ∧
        (fence.number field).bits? = some pattern ∧ (again.number field).bits? = some pattern := by
    intro again
    simp only [validate_eq_ok_iff_entries, entry_ofGeofence, readField_write_eq_ok_iff,
      Binary.eq_and_isFinite_iff]
    exact and_comm
  simp only [← BinaryFormat.isFinitePattern_binary32_iff]
  refine ⟨⟨?_, ?_⟩, accepted⟩
  · intro ⟨again, valid⟩ field
    obtain ⟨pattern, proper, has, _⟩ := ((accepted again).mp valid).2 field
    exact Binary.isFinite_iff_pattern.mpr ⟨pattern, proper, has⟩
  · intro finite
    exact ⟨fence, validate_ofGeofence (finite .latitude) (finite .longitude) (finite .radius)⟩

/-- Negative zero, the least number above zero and the greatest number come back bit for bit. -/
theorem validate_ofGeofence_extremes :
    let fence : Geofence := ⟨.ofIndex true 0, .ofIndex false 1, .ofIndex false 2139095039, .miles⟩
    ∃ again, (ofGeofence fence).validate = .ok again ∧ again.unit = .miles ∧
      again.latitude.bits? = some 0x80000000 ∧ again.longitude.bits? = some 0x00000001 ∧
      again.radius.bits? = some 0x7F7FFFFF := by
  -- Its three numbers are finite, so that the general result gives back the bits of each.
  intro fence
  obtain ⟨isAccepted, accepted⟩ := validate_ofGeofence_iff fence
  have finite : ∀ field, (fence.number field).isFinite = true := by
    intro field
    cases field <;> rfl
  obtain ⟨again, valid⟩ := isAccepted.mpr finite
  obtain ⟨unit, fields⟩ := (accepted again).mp valid
  obtain ⟨_, _, has, latitude⟩ := fields .latitude
  obtain ⟨_, _, also, longitude⟩ := fields .longitude
  obtain ⟨_, _, too, radius⟩ := fields .radius
  exact ⟨again, valid, unit, latitude.trans has.symm, longitude.trans also.symm,
    radius.trans too.symm⟩

/-- The text of a circle that was typed in holds three numbers with commas between them: its center,
and its radius as it is enforced. They are numerals of finite numbers, unless the radius is one of
too many miles. -/
theorem isUsable_iff_of_validate {draft : GeofenceDraft} {fence : Geofence}
    (valid : draft.validate = .ok fence) :
    (∃ latitude longitude radius, fence.value.toList.splitOn ',' = [latitude, longitude, radius] ∧
      Binary.read? binary32 latitude = some fence.latitude ∧
      Binary.read? binary32 longitude = some fence.longitude ∧
      Binary.read? binary32 radius = some (fence.unit.enforced fence.radius)) ∧
    (fence.IsUsable ↔
      (draft.unit = .miles → fence.radius.isWithin DistanceUnit.longestMiles = true)) := by
  -- The fields that were accepted hold finite numbers, and what is written of them is read back.
  have wide : 2 ≤ binary32.precision := by decide
  obtain ⟨first, second, third, unit⟩ := validate_eq_ok_iff.mp valid
  obtain ⟨_, _, latitude⟩ := readField_eq_ok_iff.mp first
  obtain ⟨_, _, longitude⟩ := readField_eq_ok_iff.mp second
  obtain ⟨_, _, radius⟩ := readField_eq_ok_iff.mp third
  refine ⟨⟨_, _, _, fence.splitOn_value, Binary.read?_write wide .field _,
    Binary.read?_write wide .field _, Binary.read?_write wide .field _⟩, ?_⟩
  rw [Geofence.isUsable_iff, DistanceUnit.isFinite_enforced_iff radius, unit]
  -- The center is finite in any case.
  constructor
  · intro ⟨_, _, within⟩
    exact within
  · intro within
    exact ⟨latitude, longitude, within⟩

/-- A circle around the least longitude east of the meridian, with the most miles there can be. -/
def longestDraft : GeofenceDraft := ⟨" -0 ", "1e-45", "2.1144217e38", .miles⟩

/-- The circle of that draft. -/
def longestFence : Geofence :=
  ⟨.finite ⟨true, ⟨0, by decide⟩⟩, .finite ⟨false, ⟨1, by decide⟩⟩,
    .finite DistanceUnit.longestMiles, .miles⟩

/-- With the most miles there can be a circle is still made of finite numbers. -/
theorem longestDraft_usable : longestDraft.validate = .ok longestFence ∧ longestFence.IsUsable := by
  have valid : longestDraft.validate = .ok longestFence := by rfl
  exact ⟨valid, (isUsable_iff_of_validate valid).2.mpr fun _ => by rfl⟩

/-- A draft with more miles than that. -/
def overlongDraft : GeofenceDraft := ⟨"0", "0", "3e38", .miles⟩

/-- The circle of that draft. -/
def overlongFence : Geofence :=
  ⟨.finite ⟨false, ⟨0, by decide⟩⟩, .finite ⟨false, ⟨0, by decide⟩⟩,
    .finite ⟨false, ⟨2137108966, by decide⟩⟩, .miles⟩

/-- With more miles the draft is accepted all the same, and the radius is written as infinite. -/
theorem overlongDraft_not_usable : overlongDraft.validate = .ok overlongFence ∧
    overlongFence.value = "0.0,0.0,inf" ∧ ¬ overlongFence.IsUsable := by
  -- The text is computed, and a circle with an infinite radius cannot be used.
  refine ⟨by rfl, by decide +kernel, fun usable => ?_⟩
  -- The kilometers overflow before they are divided.
  have overflow : (overlongFence.unit.enforced overlongFence.radius).isFinite = false := by
    decide +kernel
  have finite := (Geofence.isUsable_iff.mp usable).2.2
  rw [overflow] at finite
  cases finite

end GeofenceDraft

end Warrant
