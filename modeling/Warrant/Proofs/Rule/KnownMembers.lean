import Mathlib.Data.List.Nodup
import Warrant.Proofs.Outcome
import Warrant.Rule.Spec

/-! The members of rules as they are written in files: every one has a name that is known for the
kind of the rule, and no name is repeated, in rules that stand inside others too. -/

namespace Warrant

namespace Document

variable {names : List String} {members : List (Option String × Document)}

/-- All members of an object have names of a list, and no two have the same name. -/
structure NamedBy (names : List String) (members : List (Option String × Document)) : Prop where
  known : ∀ key ∈ members.map Prod.fst, ∃ name ∈ names, key = some name
  distinct : (members.map Prod.fst).Nodup

/-- A key stands as often as there are members with it. -/
theorem count_key (key : Option String) :
    (members.map Prod.fst).count key = (members.filter fun member => member.1 = key).length := by
  rw [List.count_eq_countP, List.countP_map, ← List.countP_eq_length_filter]
  refine List.countP_congr fun member _ => ?_
  simp

/-- A record that refuses strangers has the known names only, each of them at most once. -/
theorem namedBy_of_isRecord (record : isRecord .refused names members = true) :
    NamedBy names members := by
  -- The test looks at the members, to see that each is known, and at the names, to see that none
  -- repeats.
  simp only [isRecord, Bool.and_eq_true, List.all_eq_true, decide_eq_true_eq] at record
  obtain ⟨texts, single⟩ := record
  have known : ∀ key ∈ members.map Prod.fst, ∃ name ∈ names, key = some name := by
    intro key member
    obtain ⟨⟨text, value⟩, held, rfl⟩ := List.mem_map.mp member
    have refused := texts _ held
    cases text with
    | none => cases refused
    | some name => exact ⟨name, by simpa using refused, rfl⟩
  refine ⟨known, List.nodup_iff_count_le_one.mpr fun key => ?_⟩
  -- A name is counted by the members with it.
  by_cases held : key ∈ members.map Prod.fst
  · obtain ⟨name, isName, rfl⟩ := known key held
    rw [count_key]
    exact single name isName
  · rw [List.count_eq_zero_of_not_mem held]
    exact Nat.zero_le 1

/-- A member is found under its name, which no member before it has. -/
theorem NamedBy.lookup {before after : List (Option String × Document)} {key : Option String}
    {value : Document} (named : NamedBy names (before ++ (key, value) :: after)) :
    (before ++ (key, value) :: after).lookup key = some value := by
  -- The keys are different ones, so that no member before this one has its key.
  have apart := named.distinct
  rw [List.map_append, List.nodup_append] at apart
  refine List.lookup_eq_some_iff.mpr ⟨before, after, rfl, fun member held => ?_⟩
  have other := apart.2.2 member.1 (List.mem_map_of_mem held) key List.mem_cons_self
  simpa using other.symm

/-- An object with a new name has that name and its others. -/
theorem NamedBy.cons (named : NamedBy names members) {name : String} (value : Document)
    (new : some name ∉ members.map Prod.fst) :
    NamedBy (name :: names) ((some name, value) :: members) := by
  -- The new name is none of the others, and every other member keeps its name among those known.
  refine ⟨fun key member => ?_, List.nodup_cons.mpr ⟨new, named.distinct⟩⟩
  rcases List.mem_cons.mp member with rfl | behind
  · exact ⟨name, List.mem_cons_self, rfl⟩
  · obtain ⟨other, isName, same⟩ := named.known key behind
    exact ⟨other, List.mem_cons_of_mem _ isName, same⟩

/-- The order of the members does not matter to their names. -/
theorem NamedBy.perm {others : List (Option String × Document)} (named : NamedBy names members)
    (order : members.Perm others) : NamedBy names others :=
  ⟨fun key member => named.known key ((order.map Prod.fst).mem_iff.mpr member),
    (order.map Prod.fst).nodup_iff.mp named.distinct⟩

/-- The tag of an object is a member of it, and what remains are the members with other keys. -/
theorem of_untag?_record {tag : String} {value rest : Document}
    (tagged : (record members).untag? tag = some (value, rest)) :
    rest = .record (members.filter fun member => member.1 ≠ some tag) ∧
      ((some tag, value) :: members.filter fun member => member.1 ≠ some tag).Perm members := by
  -- Exactly one member has the tag for a key, and the others are kept as they are.
  rw [untag?] at tagged
  split at tagged
  · rename_i key found once
    cases tagged
    have found : (key, value) ∈ members.filter fun member => member.1 = some tag := by
      rw [once]
      exact List.mem_singleton_self _
    obtain rfl : key = some tag := of_decide_eq_true (List.mem_filter.mp found).2
    have parts := List.filter_append_perm (fun member => decide (member.1 = some tag)) members
    rw [once] at parts
    exact ⟨rfl, by simpa using parts⟩
  · cases tagged

/-- An optional field that is not null is read. -/
theorem optional?_of_ne_null {α : Type} {read : Document → Option α} {document : Document}
    (content : document ≠ .null) : optional? read (some document) = (read document).map some := by
  cases document with
  | null => exact absurd rfl content
  | _ => rfl

/-- An optional field that has a value is there, and the value is read of it. -/
theorem of_optional?_eq_some_some {α : Type} {read : Document → Option α}
    {field : Option Document} {value : α} (found : optional? read field = some (some value)) :
    ∃ document, field = some document ∧ read document = some value := by
  -- A field that is absent or null has no value.
  unfold optional? at found
  split at found
  · cases found
  · cases found
  · rename_i document _
    exact ⟨document, rfl, by simpa using found⟩

end Document

namespace RuleSpec

/-- A place for a rule in a written rule: that of the whole, or a place in a rule of a group, which
is an object with other members around its rules, or the list of its tag and its fields. -/
inductive Place where
  | whole
  | inObject (before : List (Option String × Document)) (rulesBefore : List Document)
    (inner : Place) (rulesAfter : List Document) (after : List (Option String × Document))
  | inList (tag satisfy : Document) (rulesBefore : List Document) (inner : Place)
    (rulesAfter : List Document)

namespace Place

/-- The document that has a given rule at a place. -/
def fill : Place → Document → Document
  | .whole, document => document
  | .inObject before rulesBefore inner rulesAfter after, document =>
    .record (before ++
      (some "rules", .list (rulesBefore ++ inner.fill document :: rulesAfter)) :: after)
  | .inList tag satisfy rulesBefore inner rulesAfter, document =>
    .list [tag, satisfy, .list (rulesBefore ++ inner.fill document :: rulesAfter)]

/-- Whether a place is inside a group. -/
def isNested : Place → Bool
  | .whole => false
  | _ => true

/-- What has an object at a place is not null. -/
theorem fill_record_ne_null (place : Place) {members : List (Option String × Document)} :
    place.fill (.record members) ≠ .null := by
  cases place <;> nofun

end Place

variable {inner : Document → Option RuleSpec} {levels : Nat} {nested : Bool} {kind : Kind}
  {spec : RuleSpec} {items : List Document} {members : List (Option String × Document)}

/-- A rule is read by its tag and by the fields beside it, and the rules inside it one level below.
-/
theorem of_read? {document : Document} (read : read? levels nested document = some spec) :
    ∃ below tag fields kind, document.untag? "kind" = some (tag, fields) ∧
      Kind.ofDocument? nested tag = some kind ∧
      ofFields? (read? below true) kind fields = some spec := by
  -- One level is used up by the rule itself.
  cases levels with
  | zero => cases read
  | succ below =>
    simp only [read?, Option.bind_eq_bind, Option.bind_eq_some_iff] at read
    obtain ⟨⟨tag, fields⟩, tagged, kind, known, whole⟩ := read
    exact ⟨below, tag, fields, kind, tagged, known, whole⟩

/-- The fields of a rule in an object make a record that refuses strangers. -/
theorem isRecord_of_ofFields? (read : ofFields? inner kind (.record members) = some spec) :
    Document.isRecord .refused kind.fields members = true := by
  by_contra stranger
  simp [ofFields?, Document.fields?, stranger] at read

/-- A group is read of the two fields that its kind knows, and its rules are read of the items of the
second. -/
theorem of_ofFields?_group {fields : Document} (read : ofFields? inner .group fields = some spec) :
    ∃ choice items satisfy rules,
      fields.fields? .refused Kind.group.fields = some [choice, some (.list items)] ∧
        items.map inner = rules.map some ∧ spec = .group satisfy rules := by
  -- The other kinds read other fields, of which they make no group.
  simp only [ofFields?, Option.bind_eq_bind, Option.bind_eq_some_iff] at read
  obtain ⟨slots, found, read⟩ := read
  split at read
  case h_4 choice document _ =>
    simp only [Option.bind_eq_some_iff, Document.listOf?, mapM_eq_some_iff] at read
    obtain ⟨satisfy, _, rules, ⟨items, isList, all⟩, made⟩ := read
    cases document with
    | list =>
      cases isList
      cases made
      exact ⟨choice, items, satisfy, rules, found, all, rfl⟩
    | _ => cases isList
  case h_5 => cases read
  all_goals contradiction

/-- Only the kind of groups makes groups. -/
theorem eq_group_of_ofFields? {fields : Document} {satisfy : Satisfy} {rules : List RuleSpec}
    (read : ofFields? inner kind fields = some (.group satisfy rules)) : kind = .group := by
  -- Each kind makes what is called like it, whatever its fields hold.
  simp only [ofFields?, Option.bind_eq_bind, Option.bind_eq_some_iff] at read
  obtain ⟨_, _, read⟩ := read
  split at read
  case h_4 => rfl
  case h_5 => cases read
  all_goals simp [Option.bind_eq_some_iff] at read

/-- The members of an object that is read as a rule have the names that are known for its kind. -/
theorem namedBy_of_read? (read : read? levels nested (.record members) = some spec) :
    ∃ tag kind, (some "kind", tag) ∈ members ∧ Kind.ofDocument? nested tag = some kind ∧
      Document.NamedBy ("kind" :: kind.fields) members := by
  -- The tag is taken out, what is left has the names of the kind, and the two together are the
  -- members.
  obtain ⟨below, tag, fields, kind, tagged, known, whole⟩ := of_read? read
  obtain ⟨rfl, order⟩ := Document.of_untag?_record tagged
  have named := Document.namedBy_of_isRecord (isRecord_of_ofFields? whole)
  have new : some "kind" ∉
      (members.filter fun member => member.1 ≠ some "kind").map Prod.fst := by
    simp
  exact ⟨tag, kind, order.mem_iff.mp List.mem_cons_self, known, (named.cons tag new).perm order⟩

/-- The rules of a group that is an object are read of the list under their name. -/
theorem of_read?_record {before after : List (Option String × Document)}
    (read : read? levels nested
      (.record (before ++ (some "rules", .list items) :: after)) = some spec) :
    ∃ (below : Nat) (rules : List RuleSpec), items.map (read? below true) = rules.map some := by
  -- The rules stay where they are when the tag is taken out.
  obtain ⟨below, tag, fields, kind, tagged, _, whole⟩ := of_read? read
  obtain ⟨rfl, _⟩ := Document.of_untag?_record tagged
  rw [List.filter_append, List.filter_cons_of_pos (by simp)] at whole
  have record := isRecord_of_ofFields? whole
  have named := Document.namedBy_of_isRecord record
  -- Only groups know the name of the rules.
  obtain ⟨name, isName, same⟩ := named.known (some "rules") (by simp)
  cases same
  obtain rfl : kind = .group := by
    cases kind with
    | group => rfl
    | _ => simp [Kind.fields] at isName
  -- The field that was read under the name is the list at hand.
  obtain ⟨_, _, _, rules, found, all, _⟩ := of_ofFields?_group whole
  rw [Document.fields?, if_pos record, Kind.fields, List.map_cons, List.map_singleton,
    named.lookup] at found
  cases found
  exact ⟨below, rules, all⟩

/-- The rules of a group that is a list are read of the list in its third place. -/
theorem of_read?_list {tag satisfy : Document}
    (read : read? levels nested (.list [tag, satisfy, .list items]) = some spec) :
    ∃ (below : Nat) (rules : List RuleSpec), items.map (read? below true) = rules.map some := by
  -- A list has its tag in front, and its fields follow in the order of the kind.
  obtain ⟨below, _, _, kind, tagged, _, whole⟩ := of_read? read
  cases tagged
  -- The other kinds have no list in the place of their second field.
  obtain rfl : kind = .group := by
    cases kind with
    | group => rfl
    | time => simp [ofFields?, Document.fields?, Kind.fields, text?, Document.scalar?] at whole
    | location => simp [ofFields?, Document.fields?, Kind.fields] at whole
    | cap => simp [ofFields?, Document.fields?, Kind.fields] at whole
  obtain ⟨_, _, _, rules, found, all, _⟩ := of_ofFields?_group whole
  cases found
  exact ⟨below, rules, all⟩

/-- A rule at a place of a rule that is read has been read. -/
theorem of_read?_fill {place : Place} {document : Document}
    (read : read? levels nested (place.fill document) = some spec) :
    ∃ below rule, read? below (nested || place.isNested) document = some rule := by
  -- By induction on the groups around the place, each of which reads its rules one level below.
  induction place generalizing levels nested spec with
  | whole => exact ⟨levels, spec, by simpa [Place.fill, Place.isNested] using read⟩
  | inObject before rulesBefore inner rulesAfter after ih =>
    obtain ⟨below, rules, all⟩ := of_read?_record read
    obtain ⟨rule, _, isRule⟩ := exists_result_of_mem all
      (List.mem_append_right rulesBefore List.mem_cons_self)
    simpa [Place.isNested] using ih isRule
  | inList tag satisfy rulesBefore inner rulesAfter ih =>
    obtain ⟨below, rules, all⟩ := of_read?_list read
    obtain ⟨rule, _, isRule⟩ := exists_result_of_mem all
      (List.mem_append_right rulesBefore List.mem_cons_self)
    simpa [Place.isNested] using ih isRule

/-- A rule stands within another: it is that rule, or it stands within a rule of the group. -/
inductive Within (part : RuleSpec) : RuleSpec → Prop where
  | whole : Within part part
  | member {satisfy : Satisfy} {rules : List RuleSpec} {rule : RuleSpec} (held : rule ∈ rules)
    (within : Within part rule) : Within part (.group satisfy rules)

/-- A rule of a group is read of a part of the document, and what stands at a place in that part
stands at a place in the document. -/
theorem of_read?_group {document : Document} {satisfy : Satisfy} {rules : List RuleSpec}
    {rule : RuleSpec} (read : read? levels nested document = some (.group satisfy rules))
    (held : rule ∈ rules) : ∃ below item, read? below true item = some rule ∧
      ∀ (inner : Place) (written : Document), inner.fill written = item →
        ∃ place : Place, place.fill written = document ∧ place.isNested = true := by
  -- The rule is found among the items of the group, whose place in the document is looked up.
  obtain ⟨below, tag, fields, kind, tagged, _, whole⟩ := of_read? read
  obtain rfl := eq_group_of_ofFields? whole
  obtain ⟨choice, items, _, _, found, all, same⟩ := of_ofFields?_group whole
  cases same
  obtain ⟨item, listed, isRule⟩ := exists_item_of_mem all held
  obtain ⟨rulesBefore, rulesAfter, rfl⟩ := List.append_of_mem listed
  refine ⟨below, item, isRule, ?_⟩
  rintro inner written rfl
  cases document with
  | record members =>
    -- The rules stand under their name beside the tag, and so they do in the object with the tag.
    obtain ⟨rfl, _⟩ := Document.of_untag?_record tagged
    rw [Document.fields?, if_pos (isRecord_of_ofFields? whole)] at found
    simp only [Kind.fields, List.map_cons, List.map_nil, Option.some.injEq, List.cons.injEq,
      and_true] at found
    obtain ⟨front, back, split, _⟩ := List.lookup_eq_some_iff.mp found.2
    have kept := List.mem_of_mem_filter (split ▸ List.mem_append_right front List.mem_cons_self)
    obtain ⟨before, after, rfl⟩ := List.append_of_mem kept
    exact ⟨.inObject before rulesBefore inner rulesAfter after, rfl, rfl⟩
  | list parts =>
    -- There are as many items as the tag and the fields, since the last of the fields is there.
    rcases parts with _ | ⟨first, _ | ⟨second, _ | ⟨third, _ | ⟨fourth, more⟩⟩⟩⟩ <;> cases tagged
    · -- Fewer items have no field in the place of the rules, and more are refused.
      cases found
    · cases found
    · cases found
      exact ⟨.inList tag second rulesBefore inner rulesAfter, rfl, rfl⟩
    · rw [Document.fields?, if_neg (by simp [Kind.fields])] at found
      cases found
  | _ => cases tagged

/-- Every rule within a rule that is read has been read at a place. -/
theorem exists_fill_of_within {document : Document} {part : RuleSpec}
    (read : read? levels nested document = some spec) (within : part.Within spec) :
    ∃ (place : Place) (written : Document) (below : Nat), place.fill written = document ∧
      read? below (nested || place.isNested) written = some part := by
  -- By induction on the way down to the part, with one place put inside another at each step.
  induction within generalizing levels nested document with
  | whole => exact ⟨.whole, document, levels, rfl, by simpa [Place.isNested] using read⟩
  | member held _ ih =>
    obtain ⟨below, item, isRule, around⟩ := of_read?_group read held
    obtain ⟨inner, written, deeper, filled, isPart⟩ := ih isRule
    obtain ⟨place, whole, inside⟩ := around inner written filled
    exact ⟨place, written, deeper, whole, by simpa [inside] using isPart⟩

end RuleSpec

end Warrant
