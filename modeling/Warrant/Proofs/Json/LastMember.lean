import Warrant.Json.Record
import Warrant.Proofs.Json.Sorted
import Warrant.Proofs.Json.Unordered

/-! Of a repeated key the last member counts, so that a member whose key stands once is found, and
with it the tag of a tagged value. -/

namespace Warrant

namespace Json

/-- Where keys ascend, an entry is entered unless its key is there already. -/
theorem lookup_enter_of_ascending {entries : List (String × Json)}
    (ascending : Ascending entries) (key : String) (value : Json) (other : String) :
    (enter key value entries).lookup other =
      if other = key then some ((entries.lookup key).getD value) else entries.lookup other := by
  -- The entry goes in front of the first greater key, or stops at its own.
  induction entries with
  | nil => rw [enter, lookup_cons_eq_ite, List.lookup_nil, List.lookup_nil, Option.getD_none]
  | cons entry rest ih =>
    obtain ⟨name, content⟩ := entry
    obtain ⟨before, behind⟩ := List.pairwise_cons.mp ascending
    rw [enter]
    by_cases less : key < name
    · -- All keys behind are greater still, so that the key is new.
      have new : ((name, content) :: rest).lookup key = none := by
        refine lookup_eq_none_of_notMem fun member => ?_
        rcases List.mem_cons.mp member with rfl | deeper
        · exact irrefl key less
        · obtain ⟨found, inside, rfl⟩ := List.mem_map.mp deeper
          exact irrefl _ (trans_of (· < ·) less (before found inside))
      rw [if_pos less, lookup_cons_eq_ite, new, Option.getD_none]
    · rw [if_neg less]
      -- With the same key the entry that is there stays, and else the search goes on behind it.
      by_cases same : key = name
      · subst same
        rw [if_pos rfl, lookup_cons_eq_ite, lookup_cons_eq_ite, if_pos rfl, Option.getD_some]
        split <;> rfl
      · rw [if_neg same, lookup_cons_eq_ite, lookup_cons_eq_ite, lookup_cons_eq_ite, ih behind,
          if_neg same]
        by_cases first : other = name
        · rw [if_pos first, if_pos first, if_neg fun again => same (again.symm.trans first)]
        · rw [if_neg first, if_neg first]

/-- Of a repeated key the last entry is found among all that were entered. -/
theorem lookup_enterAll (entries : List (String × Json)) (key : String) :
    (enterAll entries).lookup key =
      ((entries.filter fun entry => entry.1 = key).getLast?).map Prod.snd := by
  -- By induction: the first entry counts only if no other behind it has its key.
  induction entries with
  | nil => rfl
  | cons entry rest ih =>
    have step : enterAll (entry :: rest) = enter entry.1 entry.2 (enterAll rest) := rfl
    rw [step, lookup_enter_of_ascending (ascending_enterAll rest)]
    by_cases same : entry.1 = key
    · rw [if_pos same.symm, same, ih, List.filter_cons_of_pos (by simpa using same),
        List.getLast?_cons]
      cases (rest.filter fun entry => entry.1 = key).getLast? <;> rfl
    · rw [if_neg (Ne.symm same), ih, List.filter_cons_of_neg (by simpa using same)]

end Json

namespace Document

/-- The members with a key stand for the entries with that key. -/
theorem forall₂_filter_key {levels : Nat} {members : List (Option String × Document)}
    {entries : List (String × Json)} (listed : List.Forall₂ (IsEntry levels) members entries)
    (key : String) : List.Forall₂ (IsEntry levels)
      (members.filter fun member => member.1 = some key)
      (entries.filter fun entry => entry.1 = key) := by
  -- A member is kept exactly when its entry is.
  induction listed with
  | nil => exact .nil
  | @cons member entry _ _ stands _ ih =>
    by_cases same : entry.1 = key
    · have kept : member.1 = some key := by rw [stands.1, same]
      rw [List.filter_cons_of_pos (by simpa using kept),
        List.filter_cons_of_pos (by simpa using same)]
      exact .cons stands ih
    · have dropped : member.1 ≠ some key := by
        rw [stands.1]
        exact fun again => same (Option.some.inj again)
      rw [List.filter_cons_of_neg (by simpa using dropped),
        List.filter_cons_of_neg (by simpa using same)]
      exact ih

/-- The value of a record has, under a key that stands there once, the value of that member. -/
theorem member?_of_value? {levels : Nat} {members : List (Option String × Document)} {json : Json}
    {key : String} {member : Option String × Document}
    (once : (members.filter fun member => member.1 = some key) = [member])
    (value : (Document.record members).value? levels = some json) :
    ∃ inner content, member.2.value? inner = some content ∧ json.member? key = some content := by
  -- A record has a value when each of its members has one.
  obtain ⟨inner, entries, _, listed, rfl⟩ := value?_record_eq_some_iff.mp value
  -- The one member with the key stands for the one entry with it.
  have found := forall₂_filter_key listed key
  rw [once] at found
  obtain ⟨entry, others, stands, behind, alone⟩ := List.forall₂_cons_left_iff.mp found
  rw [List.forall₂_nil_left_iff] at behind
  refine ⟨inner, entry.2, stands.2, ?_⟩
  rw [Json.member?, Json.lookup_enterAll, alone, behind]
  rfl

/-- A document has the text of its value. -/
theorem text?_of_value? {levels : Nat} {document : Document} {json : Json}
    (value : document.value? levels = some json) : json.text? = document.text? := by
  -- Only strings have a text, and only strings have a string for a value.
  cases document with
  | string text =>
    obtain ⟨content, rfl, rfl⟩ := Option.map_eq_some_iff.mp value
    rfl
  | _ =>
    have kind := kindOf_of_value? value
    cases json with
    | str text => cases kind
    | _ => rfl

/-- A tag is the member of an object with its key, or else the first item of a list. -/
theorem value_of_untag? {levels : Nat} {document tag rest : Document} {json : Json} {key : String}
    (tagged : document.untag? key = some (tag, rest)) (value : document.value? levels = some json) :
    ∃ inner content, tag.value? inner = some content ∧
      ((∃ members, json = .obj members ∧ json.member? key = some content) ∨
        ∃ others, json = .arr (content :: others)) := by
  -- A record shows its tag under the key, and a list in its first place.
  cases document with
  | record members =>
    rw [untag?] at tagged
    split at tagged
    · rename_i name member once
      cases tagged
      obtain ⟨inner, content, held, found⟩ := member?_of_value? once value
      obtain ⟨_, entries, _, _, rfl⟩ := value?_record_eq_some_iff.mp value
      exact ⟨inner, content, held, .inl ⟨_, rfl, found⟩⟩
    · cases tagged
  | list items =>
    cases items with
    | nil => cases tagged
    | cons first others =>
      cases tagged
      obtain ⟨inner, values, _, listed, rfl⟩ := value?_list_eq_some_iff.mp value
      obtain ⟨content, behind, held, _, rfl⟩ := List.forall₂_cons_left_iff.mp listed
      exact ⟨inner, content, held, .inr ⟨behind, rfl⟩⟩
  | _ => cases tagged

end Document

end Warrant
