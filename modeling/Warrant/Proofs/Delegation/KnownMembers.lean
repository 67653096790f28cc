import Warrant.Delegation.File
import Warrant.Proofs.Rule.KnownMembers

/-! The members of delegations as they are written in files: a member that is not known spoils the
whole, wherever it stands, so that no misspelt name drops a constraint. -/

namespace Warrant.DelegationFile

/-- The rules of a delegation. -/
inductive Role where
  | grant
  | deny

/-- The name of the field that holds a rule. -/
def Role.name : Role → String
  | .grant => "grant"
  | .deny => "deny"

/-- The rule of a delegation. -/
def rule (file : DelegationFile) : Role → Option RuleSpec
  | .grant => file.grant
  | .deny => file.deny

/-- A place in a file: that of the delegation, or a place in one of its rules. -/
inductive Place where
  | delegation
  | rule (before : List (Option String × Document)) (role : Role) (inner : RuleSpec.Place)
    (after : List (Option String × Document))

/-- The document that has a given part at a place. -/
def Place.fill : Place → Document → Document
  | .delegation, part => part
  | .rule before role inner after, part =>
    .record (before ++ (some role.name, inner.fill part) :: after)

/-- The names that are declared for an object at a place: the fields of a delegation, or the name of
the tag of a rule and the fields of the kind that the tag selects. -/
inductive Place.Declares (members : List (Option String × Document)) :
    Place → List String → Prop where
  | delegation : Declares members .delegation fields
  | rule {before after : List (Option String × Document)} {role : Role} {inner : RuleSpec.Place}
    {tag : Document} {kind : RuleSpec.Kind} (held : (some "kind", tag) ∈ members)
    (selected : RuleSpec.Kind.ofDocument? inner.isNested tag = some kind) :
    Declares members (.rule before role inner after) ("kind" :: kind.fields)

variable {file : DelegationFile} {document : Document} {members : List (Option String × Document)}

/-- A delegation is read of an object that refuses strangers, and its rules are read of the members
with their names. -/
theorem of_ofDocument? (read : ofDocument? document = some file) :
    ∃ members, document = .record members ∧ Document.isRecord .refused fields members = true ∧
      ∀ role : Role, Document.optional? RuleSpec.ofDocument? (members.lookup (some role.name)) =
        some (file.rule role) := by
  -- Only an object passes the check of its members, and then the slots are read in their order.
  simp only [ofDocument?, Option.bind_eq_bind, Option.bind_eq_some_iff] at read
  obtain ⟨slots, found, read⟩ := read
  cases document with
  | record members =>
    rw [Document.namedFields?, Document.fields?] at found
    split at found
    · rename_i record
      cases found
      refine ⟨members, rfl, record, fun role => ?_⟩
      -- The two rules are read after the users and the actions.
      split at read
      · rename_i same
        simp only [fields, List.map_cons, List.map_nil, List.cons.injEq] at same
        obtain ⟨_, _, sameGrant, sameDeny, _⟩ := same
        simp only [Option.bind_eq_some_iff] at read
        obtain ⟨_, _, _, _, grant, isGrant, deny, isDeny, _, _, _, _, _, _, _, _, _, _, made⟩ := read
        cases made
        cases role with
        | grant => exact sameGrant ▸ isGrant
        | deny => exact sameDeny ▸ isDeny
      · cases read
    · cases found
  | _ => cases found

/-- The members of an object in a file that is read have the names that are declared for it. -/
theorem namedBy_of_ofDocument? {place : Place}
    (read : ofDocument? (place.fill (.record members)) = some file) :
    ∃ names, place.Declares members names ∧ Document.NamedBy names members := by
  -- What the whole file is read of settles the outermost object, and a rule inside has its own
  -- check.
  obtain ⟨_, isWhole, record, rules⟩ := of_ofDocument? read
  cases place with
  | delegation =>
    cases isWhole
    exact ⟨fields, .delegation, Document.namedBy_of_isRecord record⟩
  | rule before role inner after =>
    cases isWhole
    have isRule := rules role
    rw [(Document.namedBy_of_isRecord record).lookup,
      Document.optional?_of_ne_null inner.fill_record_ne_null, Option.map_eq_some_iff] at isRule
    obtain ⟨rule, isRule, _⟩ := isRule
    -- The object is read as a rule of the kind that its tag selects.
    obtain ⟨_, _, isRead⟩ := RuleSpec.of_read?_fill isRule
    rw [Bool.false_or] at isRead
    obtain ⟨tag, kind, held, selected, named⟩ := RuleSpec.namedBy_of_read? isRead
    exact ⟨_, .rule held selected, named⟩

/-- Every rule within a rule of a delegation has been read at a place in the file. -/
theorem exists_fill_of_within (read : ofDocument? document = some file) {role : Role}
    {whole part : RuleSpec} (held : file.rule role = some whole) (within : part.Within whole) :
    ∃ before inner after written levels,
      (Place.rule before role inner after).fill written = document ∧
        RuleSpec.read? levels inner.isNested written = some part := by
  -- The rule is read of a member of the file, and its parts at places inside of that member.
  obtain ⟨members, rfl, _, rules⟩ := of_ofDocument? read
  have isRule := rules role
  rw [held] at isRule
  obtain ⟨field, found, isRead⟩ := Document.of_optional?_eq_some_some isRule
  obtain ⟨before, after, rfl, _⟩ := List.lookup_eq_some_iff.mp found
  obtain ⟨inner, written, levels, rfl, isPart⟩ := RuleSpec.exists_fill_of_within isRead within
  rw [Bool.false_or] at isPart
  exact ⟨before, inner, after, written, levels, rfl, isPart⟩

/-- The names that are declared for an object depend on its tag only, which is no other one in an
object with more members as long as no name is repeated. -/
theorem Place.Declares.unique {place : Place} {names others : List String}
    {larger : List (Option String × Document)} (declared : place.Declares members names)
    (again : place.Declares larger others) (sub : members ⊆ larger)
    (distinct : (larger.map Prod.fst).Nodup) : names = others := by
  -- Without repetition there is only one member with the tag in the larger object.
  cases declared with
  | delegation =>
    cases again
    rfl
  | rule held selected =>
    cases again with
    | rule heldAgain selectedAgain =>
      cases List.inj_on_of_nodup_map distinct (sub held) heldAgain rfl
      rw [selected] at selectedAgain
      cases selectedAgain
      rfl

/-- No member can be put into an object of a file that is read if its name is not declared for the
object, or is that of another member. -/
theorem ofDocument?_fill_eq_none {place : Place} {names : List String}
    {before after : List (Option String × Document)} {key : Option String} {value : Document}
    (declared : place.Declares (before ++ after) names)
    (foreign : key ∉ names.map some ∨ key ∈ (before ++ after).map Prod.fst) :
    ofDocument? (place.fill (.record (before ++ (key, value) :: after))) = none := by
  -- The larger object would have declared names only, and for the same tag.
  refine Option.eq_none_iff_forall_ne_some.mpr fun other read => ?_
  obtain ⟨others, again, named⟩ := namedBy_of_ofDocument? read
  have sub : before ++ after ⊆ before ++ (key, value) :: after := by
    simp
  obtain rfl := declared.unique again sub named.distinct
  rcases foreign with unknown | repeated
  · obtain ⟨name, isName, rfl⟩ := named.known key (by simp)
    exact unknown (List.mem_map_of_mem isName)
  · have apart := named.distinct
    rw [List.map_append, List.map_cons, List.nodup_middle, List.nodup_cons] at apart
    rw [List.map_append] at repeated
    exact apart.1 repeated

/-- A file that is read is an object, and every rule within it stands at a place in it. Every object
at a place in it, be it the delegation or a rule at any depth, has only members with names that are
declared for it, and none of them twice. No other member can be put in: neither one with a name
that is not declared, nor one with a name that is there already. -/
theorem known_members (read : ofDocument? document = some file) :
    (∃ members, Place.delegation.fill (.record members) = document) ∧
    (∀ role whole part, file.rule role = some whole → part.Within whole →
      ∃ before inner after written levels,
        (Place.rule before role inner after).fill written = document ∧
          RuleSpec.read? levels inner.isNested written = some part) ∧
    ∀ (place : Place) (members : List (Option String × Document)),
      place.fill (.record members) = document →
      ∃ names, place.Declares members names ∧ Document.NamedBy names members ∧
        ∀ before after key value, members = before ++ after →
          (key ∉ names.map some ∨ key ∈ members.map Prod.fst) →
          ofDocument? (place.fill (.record (before ++ (key, value) :: after))) = none := by
  -- The three parts are about the file, about the rules in it, and about each of its objects.
  refine ⟨?_, fun _ _ _ => exists_fill_of_within read, ?_⟩
  · obtain ⟨members, rfl, _⟩ := of_ofDocument? read
    exact ⟨members, rfl⟩
  · rintro place members rfl
    obtain ⟨names, declared, named⟩ := namedBy_of_ofDocument? read
    refine ⟨names, declared, named, ?_⟩
    rintro before after key value rfl foreign
    exact ofDocument?_fill_eq_none declared foreign

/-- The place of the only rule in a group that is granted to a user. -/
def grantedCap : Place :=
  .rule [(some "users", .list [.string (some "Ada")]), (some "actions", .list [])] .grant
    (.inObject [(some "kind", .string (some "multiple"))] [] .whole [] []) []

/-- The members of a cap of two executions. -/
def capOfTwo : List (Option String × Document) :=
  [(some "kind", .string (some "execute_count")), (some "max", .number ['2'])]

/-- A file with a cap in a group is read, and the cap has the names that are declared for its kind. A
misspelt name in the cap spoils the file. -/
theorem known_members_grantedCap :
    ∃ file, ofDocument? (grantedCap.fill (.record capOfTwo)) = some file ∧
      grantedCap.Declares capOfTwo ["kind", "max"] ∧
      Document.NamedBy ["kind", "max"] capOfTwo ∧
      ofDocument? (grantedCap.fill
        (.record (capOfTwo ++ [(some "maxx", .number ['3'])]))) = none := by
  -- The file is read, which can be computed, and the rest follows for the cap as for any object in
  -- it.
  obtain ⟨file, read⟩ : ∃ file, ofDocument? (grantedCap.fill (.record capOfTwo)) = some file :=
    Option.isSome_iff_exists.mp (by decide +kernel)
  obtain ⟨names, declared, named, refused⟩ := (known_members read).2.2 grantedCap capOfTwo rfl
  have cap : grantedCap.Declares capOfTwo ["kind", "max"] := by
    show grantedCap.Declares capOfTwo ("kind" :: RuleSpec.Kind.cap.fields)
    exact .rule List.mem_cons_self (by decide)
  obtain rfl := declared.unique cap (List.Subset.refl _) named.distinct
  refine ⟨file, read, cap, named, ?_⟩
  have foreign : some "maxx" ∉ ["kind", "max"].map some := by decide
  exact refused capOfTwo [] (some "maxx") (.number ['3']) rfl (.inl foreign)

end Warrant.DelegationFile
