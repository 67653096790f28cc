import Warrant.Exchange.Command
import Warrant.Proofs.Json.CanonicalForm
import Warrant.Proofs.Json.LastMember

/-! Commands in messages: a command is read back from its own message, and the name that a message
shows is that of the command which is read from it, unless the message is a list. -/

namespace Warrant

namespace Command

open Json (IsExact IsValue FloatFree)

/-- The values that a command passes on as they were sent. -/
def payloads : Command → List Json
  | .setDataSet entries => entries
  | .registerUser profile => [profile]
  | _ => []

/-- No field of a command has the key of its name. -/
theorem filter_fields (command : Command) :
    ((Json.memberDocuments command.fields).filter fun member => member.1 = some "cmd") = [] ∧
      ((Json.memberDocuments command.fields).filter fun member => member.1 ≠ some "cmd") =
        Json.memberDocuments command.fields := by
  cases command <;> simp [fields, Json.memberDocuments]

/-- The name of a command and its fields are told apart in its message. -/
theorem untag?_document (command : Command) : command.toJson.document.untag? "cmd" =
    some (.string (some command.name), .record (Json.memberDocuments command.fields)) := by
  -- No field of a command is called like the tag.
  obtain ⟨noName, others⟩ := command.filter_fields
  rw [toJson, Json.document, Json.memberDocuments, Json.document, Document.untag?,
    List.filter_cons_of_pos (by simp), noName, List.filter_cons_of_neg (by simp), others]

/-- Items that are kept are kept as a list. -/
theorem listOf?_kept {items : List Json}
    (kept : ∀ item ∈ items, item.document.value? Json.maxDepth = some item) :
    (Json.arr items).document.listOf? (Document.value? Json.maxDepth) = some items := by
  -- By induction on the items, each of which is read by itself.
  rw [Json.document, Document.listOf?, Document.items?, Option.bind_some]
  induction items with
  | nil => rfl
  | cons item rest ih =>
    obtain ⟨first, behind⟩ := List.forall_mem_cons.mp kept
    rw [Json.itemDocuments, List.mapM_cons, first, ih behind]
    rfl

/-- The fields of a command are read back under its name, as long as its payloads are values. -/
theorem ofFields?_fields {command : Command}
    (kept : ∀ payload ∈ command.payloads, payload.document.value? Json.maxDepth = some payload) :
    ofFields? command.name (.record (Json.memberDocuments command.fields)) = some command := by
  -- The fields of each command are known, and no key stands twice among them.
  cases command with
  | setDataSet entries =>
    rw [payloads] at kept
    simp [ofFields?, name, fields, field?, Json.memberDocuments, Document.fields?,
      Document.isRecord, listOf?_kept kept]
  | registerUser profile =>
    simp [ofFields?, name, fields, field?, Json.memberDocuments, Document.fields?,
      Document.isRecord, kept profile (List.mem_singleton_self profile)]
  | resolve policy user | enablePolicy policy user =>
    simp [ofFields?, name, fields, policyAndUser?, Json.memberDocuments, Document.fields?,
      Document.isRecord, List.lookup_cons, Json.document, Document.text?, PolicyId.toJson,
      PolicyId.ofDocument?]
  | getPolicyList user | getAuthUserId user | getUser user =>
    simp [ofFields?, name, fields, field?, Json.memberDocuments, Document.fields?,
      Document.isRecord, Json.document, Document.text?]
  | getAllUsers | clearAllUsers | getDataSet =>
    simp [ofFields?, name, fields, alone?, Json.memberDocuments, Document.fields?,
      Document.isRecord]

/-- A message holds the values that its command passes on, and no other numbers. -/
theorem isExact_toJson {command : Command} (exact : ∀ payload ∈ command.payloads, payload.IsExact) :
    command.toJson.IsExact := by
  -- Two commands pass values on, and the fields of all others are strings.
  cases command with
  | setDataSet entries =>
    have entries : Json.ItemsExact entries := (Json.itemsExact_iff entries).mpr exact
    simp [toJson, fields, IsExact, Json.MembersExact, entries]
  | registerUser profile =>
    have profile := exact profile (List.mem_singleton_self profile)
    simp [toJson, fields, IsExact, Json.MembersExact, profile]
  | _ => simp [toJson, fields, IsExact, Json.MembersExact, PolicyId.toJson]

/-- A message repeats no key, unless the values that its command passes on do. -/
theorem distinctKeys_toJson {command : Command}
    (distinct : ∀ payload ∈ command.payloads, payload.DistinctKeys) :
    command.toJson.DistinctKeys := by
  -- The keys of the message are fixed, so that only the values that are passed on can repeat one.
  cases command with
  | setDataSet entries =>
    have entries : Json.ItemsDistinctKeys entries :=
      (Json.itemsDistinctKeys_iff entries).mpr distinct
    simp [toJson, fields, Json.DistinctKeys, Json.MembersDistinctKeys, entries]
  | registerUser profile =>
    have profile := distinct profile (List.mem_singleton_self profile)
    simp [toJson, fields, Json.DistinctKeys, Json.MembersDistinctKeys, profile]
  | _ => simp [toJson, fields, Json.DistinctKeys, Json.MembersDistinctKeys, PolicyId.toJson]

/-- The values that a command passes on do not nest as deep as its message. -/
theorem depth_lt_of_mem_payloads {command : Command} {payload : Json}
    (passed : payload ∈ command.payloads) : payload.depth < command.toJson.depth := by
  -- One command passes on the items of its list, and one a single value.
  cases command with
  | setDataSet entries =>
    have within := (Json.depthItems_le_iff entries _).mp (Nat.le_refl _) payload passed
    simp [toJson, fields, Json.depth, Json.depthMembers]
    omega
  | registerUser profile =>
    rw [List.mem_singleton.mp passed]
    simp [toJson, fields, Json.depth, Json.depthMembers]
  | _ => cases passed

/-- A command is read back from the compact text of its message, unless that nests too deep. -/
theorem parse?_compact {command : Command}
    (values : ∀ payload ∈ command.payloads, payload.IsValue ∧ payload.FloatFree) :
    parse? command.toJson.compact =
      if command.toJson.depth ≤ Json.maxDepth then some command else none := by
  -- The message is exact, so that its text is read back as the document that was written.
  have each : ∀ payload ∈ command.payloads, payload.IsExact :=
    fun payload passed => (values payload passed).1.isExact (values payload passed).2
  have exact := isExact_toJson each
  rw [parse?, Json.compact, String.toList_ofList, Json.read?_write exact.firstFloat?,
    Option.bind_some, ofDocument?, Json.value?_document Json.maxDepth exact]
  by_cases fits : command.toJson.depth ≤ Json.maxDepth
  · -- The payloads nest less deep, and each of them is its own value.
    have kept : ∀ payload ∈ command.payloads,
        payload.document.value? Json.maxDepth = some payload := by
      intro payload passed
      have inner := depth_lt_of_mem_payloads passed
      rw [Json.value?_document _ (each payload passed), if_pos (by omega),
        (values payload passed).1.sorted_eq]
    rw [if_pos fits, if_pos fits, untag?_document]
    exact ofFields?_fields kept
  · rw [if_neg fits, if_neg fits]
    rfl

/-- The name of a command is found in the compact text of its message, unless that nests too deep.
-/
theorem nameOf?_compact {command : Command}
    (values : ∀ payload ∈ command.payloads, payload.IsValue ∧ payload.FloatFree) :
    nameOf? command.toJson.compact =
      if command.toJson.depth ≤ Json.maxDepth then some command.name else none := by
  -- The name is looked up in the value of the message, which repeats no key.
  have exact : command.toJson.IsExact := isExact_toJson fun payload passed =>
    (values payload passed).1.isExact (values payload passed).2
  have distinct : command.toJson.DistinctKeys := distinctKeys_toJson fun payload passed =>
    (values payload passed).1.distinctKeys
  have named : command.toJson.member? "cmd" = some (.str command.name) := by
    rw [toJson, Json.member?, List.lookup_cons_self]
  rw [nameOf?, Json.parse?_compact exact]
  by_cases fits : command.toJson.depth ≤ Json.maxDepth
  · -- The name stands under its key in the value of the message as well.
    rw [if_pos fits, if_pos fits]
    simp [Json.member?_sorted distinct, named, Json.sorted, Json.text?]
  · rw [if_neg fits, if_neg fits]
    rfl

/-- A command whose payloads are values without floats is read back from its message, and its name
is found there, as long as the text nests at most 127 levels. -/
theorem message_reads_back {command : Command}
    (values : ∀ payload ∈ command.payloads, payload.IsValue ∧ payload.FloatFree)
    (fits : command.toJson.depth ≤ 127) :
    parse? command.toJson.compact = some command ∧
      nameOf? command.toJson.compact = some command.name := by
  rw [parse?_compact values, nameOf?_compact values]
  exact ⟨if_pos fits, if_pos fits⟩

/-- A registration with a nested profile, whose strings need escapes. -/
def sampleRegistration : Command :=
  .registerUser (.obj [("cmd", .str "\"get_user\"\n"),
    ("tags", .arr [.int (-5), .null, .obj [("", .bool true)]])])

/-- The sample registration is read back, although its profile has a member with the key of the
name. -/
theorem sampleRegistration_reads_back :
    (∀ payload ∈ sampleRegistration.payloads, payload.IsValue ∧ payload.FloatFree) ∧
      sampleRegistration.toJson.depth ≤ 127 ∧
      parse? sampleRegistration.toJson.compact = some sampleRegistration ∧
      nameOf? sampleRegistration.toJson.compact = some "register_user" := by
  -- What the profile is made of is taken apart from the inside to the outside.
  have values : ∀ payload ∈ sampleRegistration.payloads, payload.IsValue ∧ payload.FloatFree := by
    intro payload passed
    rw [List.mem_singleton.mp passed]
    -- The keys ascend, the only integer is small, and there is no float.
    have text : ∀ text, (Json.str text).IsValue := fun _ => Json.isValue_of_leaf rfl rfl nofun
    have null : Json.null.IsValue := Json.isValue_of_leaf rfl rfl nofun
    have flag : (Json.bool true).IsValue := Json.isValue_of_leaf rfl rfl nofun
    have number : (Json.int (-5)).IsValue :=
      Json.isValue_of_leaf rfl rfl fun n same => by rw [← Json.int.inj same]; decide
    have inner : (Json.obj [("", .bool true)]).IsValue :=
      Json.isValue_obj_iff.mpr ⟨List.pairwise_singleton _ _, List.forall_mem_singleton.mpr flag⟩
    refine ⟨Json.isValue_obj_iff.mpr ⟨List.pairwise_pair.mpr (by decide), ?_⟩,
      (Json.firstFloat?_eq_none_iff _).mp rfl⟩
    simp [Json.isValue_arr_iff, text, null, number, inner]
  -- What the payload is made of are values, so that the command is read back at its depth.
  have fits : sampleRegistration.toJson.depth ≤ 127 := by decide
  exact ⟨values, fits, message_reads_back values fits⟩

/-- What is read under a name is a command of that name. -/
theorem name_of_ofFields? {called : String} {rest : Document} {command : Command}
    (read : ofFields? called rest = some command) : command.name = called := by
  -- One case for each name: the command is built by the constructor that has it.
  unfold ofFields? at read
  simp only [Option.bind_eq_bind, Option.pure_def] at read
  split at read
  -- The name is unknown.
  case h_11 => cases read
  -- The command has no fields.
  case h_5 | h_6 | h_8 =>
    obtain ⟨_, _, rfl⟩ := Option.map_eq_some_iff.mp read
    rfl
  -- The command has a policy and a user, which are read at once.
  case h_1 | h_3 =>
    obtain ⟨_, _, taken⟩ := Option.bind_eq_some_iff.mp read
    cases taken
    rfl
  -- The command has one field, which is found and then read.
  all_goals
    obtain ⟨_, _, taken⟩ := Option.bind_eq_some_iff.mp read
    obtain ⟨_, _, made⟩ := Option.bind_eq_some_iff.mp taken
    cases made
    rfl

/-- A command is read from a message that has a value and tells the name from the fields. -/
theorem of_parse?_eq_some {message : String} {command : Command}
    (read : parse? message = some command) :
    ∃ document json called rest, Document.read? message.toList = some document ∧
      document.value? Json.maxDepth = some json ∧
      document.untag? "cmd" = some (called, rest) ∧ called.text? = some command.name := by
  -- The reader goes from the text to the document, and from that to its value and its tag.
  obtain ⟨document, written, read⟩ := Option.bind_eq_some_iff.mp read
  simp only [ofDocument?, Option.bind_eq_bind, Option.bind_eq_some_iff] at read
  obtain ⟨json, value, ⟨called, rest⟩, tagged, text, isText, read⟩ := read
  rw [← name_of_ofFields? read] at isText
  exact ⟨document, json, called, rest, written, value, tagged, isText⟩

/-- A message from which a command is read shows the name of that command when it is an object. When
it is a list, it starts with the name, and shows none. -/
theorem nameOf?_of_parse? {message : String} {command : Command}
    (read : parse? message = some command) :
    (∃ members, Json.parse? message = some (.obj members) ∧
      nameOf? message = some command.name) ∨
    (∃ fields, Json.parse? message = some (.arr (.str command.name :: fields)) ∧
      nameOf? message = none) := by
  -- The document has its tag in one of two places, and so has the value.
  obtain ⟨document, json, called, rest, written, value, tagged, isText⟩ := of_parse?_eq_some read
  have parsed : Json.parse? message = some json := by
    rw [Json.parse?, written, Option.bind_some, value]
  obtain ⟨levels, content, named, place⟩ := Document.value_of_untag? tagged value
  have isName : content.text? = some command.name := by
    rw [Document.text?_of_value? named, isText]
  rw [nameOf?, parsed]
  rcases place with ⟨members, rfl, found⟩ | ⟨fields, rfl⟩
  · refine .inl ⟨members, rfl, ?_⟩
    simp [found, isName]
  · -- Only a string has a text, and a list has no members.
    cases content with
    | str text =>
      cases isName
      exact .inr ⟨fields, rfl, rfl⟩
    | _ => cases isName

/-- A message that spells the key of the name with an escape, and the name last. -/
def spelledName : String := "\x7b\"user_id\":\"u1\",\"\\u0063md\":\"get_policy_list\"\x7d"

/-- A name is shown wherever it stands in an object, however its key is spelled. -/
theorem spelledName_shown :
    parse? spelledName = some (.getPolicyList "u1") ∧
      nameOf? spelledName = some "get_policy_list" := by
  -- The escape in the key is resolved when the document is read.
  have written : Document.read? spelledName.toList = some (.record
      [(some "user_id", .string (some "u1")), (some "cmd", .string (some "get_policy_list"))]) := by
    simp only [spelledName, String.reduceToList]
    rfl
  have read : parse? spelledName = some (.getPolicyList "u1") := by
    rw [parse?, written]
    rfl
  refine ⟨read, ?_⟩
  rcases nameOf?_of_parse? read with ⟨_, _, shown⟩ | ⟨_, listed, _⟩
  · exact shown
  · -- The message is no list.
    rw [Json.parse?, written] at listed
    cases listed

/-- A command is read from a list of its name alone, which shows no name. -/
theorem listedName_not_shown :
    parse? "[\"get_all_users\"]" = some .getAllUsers ∧
      nameOf? "[\"get_all_users\"]" ≠ some getAllUsers.name := by
  -- A list that starts with a name is a command without fields.
  have written : Document.read? "[\"get_all_users\"]".toList =
      some (.list [.string (some "get_all_users")]) := by
    simp only [String.reduceToList]
    rfl
  have read : parse? "[\"get_all_users\"]" = some .getAllUsers := by
    rw [parse?, written]
    rfl
  have shown : nameOf? "[\"get_all_users\"]" = none := by
    rw [nameOf?, Json.parse?, written]
    rfl
  refine ⟨read, fun same => ?_⟩
  rw [shown] at same
  cases same

end Command

end Warrant
