import Warrant.Exchange.Frame
import Warrant.Proofs.Json.Extent

/-! When a message of a stream is found: once its last character has arrived, and from then on. -/

namespace Warrant

open Document (IsOpened readFirst? skipSpaces isSpace)

/-- A text that ends with the bracket of a record or of a list. -/
def IsClosed (text : List Char) : Prop :=
  text.getLast? = some '\x7d' ∨ text.getLast? = some ']'

/-- No blanks are removed from what starts with a bracket. -/
theorem trimStart_of_isOpened {text : List Char} (opened : IsOpened text) :
    Text.trimStart text = text := by
  -- Neither of the brackets is blank.
  obtain ⟨bracket, tail, rfl, mark⟩ := opened.eq_cons
  have visible : Text.isBlank bracket = false := by rcases mark with rfl | rfl <;> rfl
  exact Text.trimStart_cons tail visible

/-- What follows a bracket does not change where the blanks in front of it end. -/
theorem trimStart_append_of_isOpened {text : List Char} (opened : IsOpened (Text.trimStart text))
    (following : List Char) :
    Text.trimStart (text ++ following) = Text.trimStart text ++ following := by
  -- The blanks end at the bracket already.
  obtain ⟨bracket, tail, form, _⟩ := opened.eq_cons
  rw [Text.trimStart] at form ⊢
  rw [Text.trimStart, List.dropWhile_append, form]
  rfl

/-- A text stays open at its start, whatever follows it. -/
theorem isOpened_append {text : List Char} (opened : IsOpened text) (following : List Char) :
    IsOpened (text ++ following) := by
  obtain ⟨bracket, tail, rfl, mark⟩ := opened.eq_cons
  exact mark.imp (congrArg some) (congrArg some)

/-- A message is found where a bracket opens a document that has a value. -/
theorem firstFrame?_eq_some_iff {buffer : String} {json : Json} :
    firstFrame? buffer = some json ↔ IsOpened (Text.trimStart buffer.toList) ∧
      ∃ document rest, readFirst? (Text.trimStart buffer.toList) = some (document, rest) ∧
        document.value? Json.maxDepth = some json := by
  -- The three checks of the search have to succeed one after the other.
  rw [firstFrame?]
  constructor
  · intro found
    split at found
    · rename_i opened
      split at found
      · rename_i document rest read
        exact ⟨opened, document, rest, read, found⟩
      · cases found
    · cases found
  · rintro ⟨opened, document, rest, read, value⟩
    unfold IsOpened at opened
    rw [if_pos opened, read]
    exact value

/-- A message that is found stays the first one, whatever the stream brings. -/
theorem firstFrame?_append {buffer : String} {json : Json} (found : firstFrame? buffer = some json)
    (following : String) : firstFrame? (buffer ++ following) = some json := by
  -- The document is read again, and what came with it is left behind it.
  obtain ⟨opened, document, rest, read, value⟩ := firstFrame?_eq_some_iff.mp found
  rw [firstFrame?_eq_some_iff, String.toList_append, trimStart_append_of_isOpened opened]
  exact ⟨isOpened_append opened _, document, rest ++ following.toList,
    opened.readFirst?_append read following.toList, value⟩

/-- A text between brackets that has a value is read to its end. -/
theorem readFirst?_of_parse? {text : String} {json : Json} (closed : IsClosed text.toList)
    (parsed : Json.parse? text = some json) :
    ∃ document, readFirst? text.toList = some (document, []) ∧
      document.value? Json.maxDepth = some json := by
  -- The text has a document, and what is left behind that is blank.
  obtain ⟨document, found, value⟩ := Option.bind_eq_some_iff.mp parsed
  rw [Document.read?] at found
  split at found
  · rename_i first rest read
    split at found
    · rename_i blank
      cases found
      -- Only blanks could follow the document, and the last character of the text is none.
      cases rest with
      | nil => exact ⟨document, read, value⟩
      | cons c rest =>
        obtain ⟨front, form, _⟩ := Document.readValue?_extent _ read
        have last : (c :: rest).getLast? = text.toList.getLast? := by
          rw [form, List.getLast?_append_of_ne_nil _ (List.cons_ne_nil c rest)]
        have spaces := List.dropWhile_eq_nil_iff.mp blank
        -- A text that is closed ends in a brace or a bracket.
        rcases closed with brace | bracket
        · exact absurd (spaces _ (List.mem_of_getLast? (last.trans brace))) (by decide)
        · exact absurd (spaces _ (List.mem_of_getLast? (last.trans bracket))) (by decide)
    · cases found
  · cases found

/-- What a stream has brought after so many chunks. -/
def received (chunks : List String) (count : Nat) : String :=
  String.join (chunks.take count)

/-- A message behind blanks is found exactly when its last character has arrived, however the stream
is cut into chunks. What follows it makes no difference, and no part of it is taken for a message.
-/
theorem firstFrame?_arrives {blanks text : String} {json : Json}
    (blank : ∀ c ∈ blanks.toList, Text.isBlank c = true) (opened : IsOpened text.toList)
    (closed : IsClosed text.toList) (parsed : Json.parse? text = some json) :
    (∀ following, firstFrame? (blanks ++ text ++ following) = some json) ∧
      (∀ part : String, part.toList <+: (blanks ++ text).toList → part ≠ blanks ++ text →
        firstFrame? part = none) ∧
      ∀ chunks following, String.join chunks = blanks ++ text ++ following → ∀ count,
        firstFrame? (received chunks count) =
          if (blanks ++ text).length ≤ (received chunks count).length then some json else none := by
  -- The message starts behind the blanks, and its document ends with its last character.
  obtain ⟨document, read, value⟩ := readFirst?_of_parse? closed parsed
  have trimmed : Text.trimStart (blanks ++ text).toList = text.toList := by
    rw [String.toList_append, Text.trimStart_append _ _ blank, trimStart_of_isOpened opened]
  have whole : firstFrame? (blanks ++ text) = some json := by
    rw [firstFrame?_eq_some_iff, trimmed]
    exact ⟨opened, document, [], read, value⟩
  have complete (following : String) : firstFrame? (blanks ++ text ++ following) = some json :=
    firstFrame?_append whole following
  have incomplete (part : String) (start : part.toList <+: (blanks ++ text).toList)
      (proper : part ≠ blanks ++ text) : firstFrame? part = none := by
    -- A message in the part would be the whole one, with what is missing left behind it.
    refine Option.eq_none_iff_forall_ne_some.mpr fun other found => proper ?_
    obtain ⟨missing, form⟩ := start
    obtain ⟨openedPart, _, rest, readPart, _⟩ := firstFrame?_eq_some_iff.mp found
    have again := openedPart.readFirst?_append readPart missing
    rw [← trimStart_append_of_isOpened openedPart, form, trimmed, read, Option.some.injEq,
      Prod.mk.injEq] at again
    have nothing : missing = [] := (List.append_eq_nil_iff.mp again.2.symm).2
    rw [nothing, List.append_nil] at form
    exact String.toList_inj.mp form
  refine ⟨complete, incomplete, fun chunks following stream count => ?_⟩
  -- What has arrived is a part of the message or goes beyond it.
  have arrived : (received chunks count).toList <+: (blanks ++ text ++ following).toList := by
    refine ⟨(String.join (chunks.drop count)).toList, ?_⟩
    rw [← String.toList_append, received, ← String.join_append, List.take_append_drop, stream]
  have message : (blanks ++ text).toList <+: (blanks ++ text ++ following).toList := by
    rw [String.toList_append (s := blanks ++ text)]
    exact List.prefix_append _ _
  split
  · -- What goes beyond the message is more text behind it.
    rename_i enough
    rw [← String.length_toList, ← String.length_toList] at enough
    obtain ⟨more, form⟩ := List.prefix_of_prefix_length_le message arrived enough
    rw [← String.toList_ofList (l := more), ← String.toList_append, String.toList_inj] at form
    rw [← form]
    exact complete (String.ofList more)
  · -- What falls short of the message is a part of it, and not the whole.
    rename_i early
    rw [← String.length_toList, ← String.length_toList] at early
    refine incomplete _ (List.prefix_of_prefix_length_le arrived message (by omega)) ?_
    intro same
    rw [same] at early
    exact early (Nat.le_refl _)

/-- A bracket in a string does not end the list around it, nor does the escaped quote in front of it
end the string. -/
theorem firstFrame?_arrives_quoted :
    firstFrame? ("\n" ++ "[\"\\\"]\"]" ++ "4]") = some (.arr [.str "\"]"]) ∧
      firstFrame? "\n[\"\\\"]" = none := by
  -- The part that ends inside the string is shorter than the message.
  have parsed : Json.parse? "[\"\\\"]\"]" = some (.arr [.str "\"]"]) := by
    simp only [Json.parse?, String.reduceToList]
    rfl
  have blank : ∀ c ∈ "\n".toList, Text.isBlank c = true := by
    simp only [String.reduceToList, List.forall_mem_singleton]
    rfl
  obtain ⟨complete, incomplete, _⟩ := firstFrame?_arrives blank (.inr rfl) (.inr rfl) parsed
  refine ⟨complete "4]", incomplete _ ?_ fun same => ?_⟩
  · simp
  · have lengths := congrArg String.length same
    simp only [String.length_append] at lengths
    exact absurd lengths (by decide)

end Warrant
