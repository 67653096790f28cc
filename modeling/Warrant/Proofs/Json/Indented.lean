import Warrant.Proofs.Json.ReadBack

/-! The indented text of a value without floats is read back as the document it writes, like the
compact one: no blank between tokens is seen by the reader. -/

namespace Warrant

namespace Json

open Document (readValue? readItems? readMembers? endsNumeral skipSpaces isSpace)

/-- The start of a line is blank. -/
theorem isSpace_of_mem_newLine {level : Nat} {c : Char} (member : c ∈ newLine level) :
    isSpace c = true := by
  rw [newLine, List.mem_cons, List.mem_replicate] at member
  rcases member with rfl | ⟨_, rfl⟩ <;> decide

/-- The start of a line is skipped. -/
@[simp] theorem skipSpaces_newLine (level : Nat) (text : List Char) :
    skipSpaces (newLine level ++ text) = skipSpaces text :=
  Document.skipSpaces_append (fun _ member => isSpace_of_mem_newLine member) text

/-- A document is the same behind one blank. -/
@[simp] theorem readValue?_blank (fuel : Nat) (text : List Char) :
    readValue? fuel (' ' :: text) = readValue? fuel text :=
  Document.readValue?_append (List.forall_mem_singleton.mpr rfl) fuel text

/-- A document is the same on a new line. -/
@[simp] theorem readValue?_newLine (fuel level : Nat) (text : List Char) :
    readValue? fuel (newLine level ++ text) = readValue? fuel text :=
  Document.readValue?_append (fun _ member => isSpace_of_mem_newLine member) fuel text

/-- No indented text is empty. -/
theorem indent_ne_nil (level : Nat) : ∀ {json : Json}, json.firstFloat? = none →
    json.indent level ≠ []
  -- It starts like the compact text.
  | .null, noFloat | .bool _, noFloat | .int _, noFloat | .str _, noFloat => by
    have leaf := write_ne_nil noFloat
    rwa [write] at leaf <;> simp
  | .arr [], _ | .arr (_ :: _), _ | .obj [], _ | .obj (_ :: _), _ => List.cons_ne_nil _ _

mutual

/-- The indented text of a value without floats is read as its document, up to what follows it. -/
theorem readValue?_indent : ∀ (json : Json) (level fuel : Nat) (rest : List Char),
    json.firstFloat? = none → 2 * (json.indent level).length ≤ fuel → endsNumeral rest = true →
    readValue? fuel (json.indent level ++ rest) = some (json.document, rest)
  -- By induction on the fuel: a leaf is written as in a compact text, and lines are read one after
  -- the other, each on its own blanks.
  | .null, level, fuel, rest, noFloat, enough, ends
  | .bool _, level, fuel, rest, noFloat, enough, ends
  | .int _, level, fuel, rest, noFloat, enough, ends
  | .str _, level, fuel, rest, noFloat, enough, ends => by
    simp only [indent] at enough ⊢
    have read := readValue?_write _ fuel rest noFloat (by simpa only [write] using enough) ends
    simpa only [write] using read
  -- Nothing stands between the brackets of an empty array.
  | .arr [], level, fuel + 1, rest, _, _, _ => by
    simp [indent, readValue?, skipSpaces, isSpace, document, itemDocuments]
  -- The items stand on lines of their own, one level further in.
  | .arr (item :: items), level, fuel + 1, rest, noFloat, enough, _ => by
    simp only [firstFloat?] at noFloat
    simp only [indent, List.length_cons, List.length_append] at enough
    have read := readItems?_indent item items (level + 1) level fuel rest noFloat (by omega)
    simp only [indent, List.cons_append, List.append_assoc, List.nil_append]
    rw [Document.readValue?_list read, document]
  | .obj [], level, fuel + 1, rest, _, _, _ => by
    simp [indent, readValue?, skipSpaces, isSpace, document, memberDocuments]
  | .obj ((key, value) :: members), level, fuel + 1, rest, noFloat, enough, _ => by
    simp only [firstFloat?] at noFloat
    simp only [indent, List.length_cons, List.length_append] at enough
    have read :=
      readMembers?_indent key value members (level + 1) level fuel rest noFloat (by omega)
    simp only [indent, List.cons_append, List.append_assoc, List.nil_append]
    rw [Document.readValue?_record read, document]
  -- Every text has a character, for which some fuel is needed.
  | json, level, 0, rest, noFloat, enough, _ => by
    have present := List.length_pos_iff.mpr (indent_ne_nil level noFloat)
    omega
termination_by structural _ _ fuel => fuel

/-- The lines of items are read up to the closing bracket on a line of its own. -/
theorem readItems?_indent : ∀ (item : Json) (items : List Json) (level outer fuel : Nat)
    (rest : List Char), firstFloatItem? (item :: items) = none →
    2 * (indentItems level (item :: items)).length + 1 ≤ fuel →
    readItems? fuel (indentItems level (item :: items) ++ (newLine outer ++ ']' :: rest)) =
      some (itemDocuments (item :: items), rest)
  -- A comma or the end of the line ends any numeral in front of it.
  | item, [], level, outer, fuel + 1, rest, noFloat, enough => by
    have noFloat := firstFloatItem?_cons_eq_none_iff.1 noFloat
    simp only [indentItems, List.length_append] at enough
    have first := readValue?_indent item level fuel (newLine outer ++ ']' :: rest) noFloat.1
      (by omega) rfl
    simp [indentItems, readItems?, first, Document.skipSpaces_cons, isSpace, itemDocuments]
  | item, next :: items, level, outer, fuel + 1, rest, noFloat, enough => by
    have noFloat := firstFloatItem?_cons_eq_none_iff.1 noFloat
    simp only [indentItems, List.length_append, List.length_cons] at enough
    have first := readValue?_indent item level fuel
      (',' :: (indentItems level (next :: items) ++ (newLine outer ++ ']' :: rest))) noFloat.1
      (by omega) rfl
    have others := readItems?_indent next items level outer fuel rest noFloat.2 (by omega)
    simp [indentItems, readItems?, first, Document.skipSpaces_cons, isSpace, itemDocuments, others]
  | _, _, _, _, 0, _, _, enough => absurd enough (by omega)
termination_by structural _ _ _ _ fuel => fuel

/-- The lines of members are read up to the closing brace on a line of its own. -/
theorem readMembers?_indent : ∀ (key : String) (value : Json) (members : List (String × Json))
    (level outer fuel : Nat) (rest : List Char),
    firstFloatMember? ((key, value) :: members) = none →
    2 * (indentMembers level ((key, value) :: members)).length + 1 ≤ fuel →
    readMembers? fuel
        (indentMembers level ((key, value) :: members) ++ (newLine outer ++ '\x7d' :: rest)) =
      some (memberDocuments ((key, value) :: members), rest)
  -- The key is read as a string, and a comma or the end of the line ends its value.
  -- The last member is followed by the line of the closing mark.
  | key, value, [], level, outer, fuel + 1, rest, noFloat, enough => by
    have noFloat := firstFloatMember?_cons_eq_none_iff.1 noFloat
    simp only [indentMembers, List.length_append, List.length_cons] at enough
    have name := readString?_writeText key
      (':' :: ' ' :: (value.indent level ++ (newLine outer ++ '\x7d' :: rest)))
    have first := readValue?_indent value level fuel (newLine outer ++ '\x7d' :: rest) noFloat.1
      (by omega) rfl
    simp [indentMembers, writeText, readMembers?, first, name, Document.skipSpaces_cons, isSpace,
      memberDocuments]
  -- Any other member is followed by a comma and the members behind it.
  | key, value, (next, other) :: members, level, outer, fuel + 1, rest, noFloat, enough => by
    have noFloat := firstFloatMember?_cons_eq_none_iff.1 noFloat
    simp only [indentMembers, List.length_append, List.length_cons] at enough
    have name := readString?_writeText key (':' :: ' ' :: (value.indent level ++
      ',' :: (indentMembers level ((next, other) :: members) ++ (newLine outer ++ '\x7d' :: rest))))
    have first := readValue?_indent value level fuel
      (',' :: (indentMembers level ((next, other) :: members) ++ (newLine outer ++ '\x7d' :: rest)))
      noFloat.1 (by omega) rfl
    have others := readMembers?_indent next other members level outer fuel rest noFloat.2 (by omega)
    simp [indentMembers, writeText, readMembers?, first, name, Document.skipSpaces_cons, isSpace,
      memberDocuments, others]
  | _, _, _, _, _, 0, _, _, enough => absurd enough (by omega)
termination_by structural _ _ _ _ _ fuel => fuel

end

/-- The indented text of a value without floats is read as its document. -/
theorem read?_indent {json : Json} (noFloat : json.firstFloat? = none) :
    Document.read? (json.indent 0) = some json.document := by
  -- Nothing follows the value, and the length of the text is fuel enough for all of it.
  have read := readValue?_indent json 0 (2 * (json.indent 0).length + 2) [] noFloat (by omega) rfl
  rw [List.append_nil] at read
  rw [Document.read?, Document.readFirst?, read]
  rfl

end Json

end Warrant
