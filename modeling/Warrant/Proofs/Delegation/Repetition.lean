import Warrant.Proofs.Delegation.Assembly

/-! Repeated users leave no trace: a policy names every public identity once, where it occurs first
among the users, and is the same when a user is selected again. -/

namespace Warrant.Delegation

/-- The users that are kept so far, and a further one unless the public identity is among theirs. -/
def keep (kept : List Catalog.User) (user : Catalog.User) : List Catalog.User :=
  if user.publicId ∈ kept.map Catalog.User.publicId then kept else kept ++ [user]

/-- A user whose public identity was kept is passed over. -/
theorem keep_of_mem {kept : List Catalog.User} {user : Catalog.User}
    (known : user.publicId ∈ kept.map Catalog.User.publicId) : keep kept user = kept :=
  if_pos known

/-- Passing through users keeps the distinct ones among them whose public identity is new. -/
theorem foldl_keep (users kept : List Catalog.User) :
    users.foldl keep kept = kept ++
      (distinct users).filter fun user => user.publicId ∉ kept.map Catalog.User.publicId := by
  -- What is kept grows user by user, and the rest is measured against all of it.
  induction users generalizing kept with
  | nil => simp [distinct]
  | cons user rest ih =>
    rw [List.foldl_cons, ih, distinct, List.filter_cons, List.filter_filter]
    by_cases known : user.publicId ∈ kept.map Catalog.User.publicId
    · -- Whoever is new has another identity than this user.
      rw [keep_of_mem known, if_neg (by simpa using known)]
      congr 1
      refine List.filter_congr fun other _ => ?_
      by_cases same : other.publicId = user.publicId
      · simp [same, known]
      · simp [same]
    · -- A new user is kept, and those behind are measured against one identity more.
      rw [keep, if_neg known, if_pos (by simpa using known), List.append_assoc,
        List.singleton_append]
      congr 2
      refine List.filter_congr fun other _ => ?_
      have grown : other.publicId ∈ (kept ++ [user]).map Catalog.User.publicId ↔
          other.publicId ∈ kept.map Catalog.User.publicId ∨ other.publicId = user.publicId := by
        rw [List.map_append, List.map_singleton, List.mem_append, List.mem_singleton]
      simp only [grown, not_or, ne_eq, Bool.decide_and]

/-- The distinct users are those that are kept one by one. -/
theorem distinct_eq_foldl_keep (users : List Catalog.User) :
    distinct users = users.foldl keep [] := by
  simp [foldl_keep]

/-- A user whose public identity came before makes no difference. -/
theorem distinct_append_cons {before : List Catalog.User} {user : Catalog.User}
    (repeated : user.publicId ∈ before.map Catalog.User.publicId) (after : List Catalog.User) :
    distinct (before ++ user :: after) = distinct (before ++ after) := by
  -- The identity is kept when the user is reached.
  have known : user.publicId ∈ (before.foldl keep []).map Catalog.User.publicId := by
    rw [← distinct_eq_foldl_keep]
    exact mem_map_distinct.mpr repeated
  rw [distinct_eq_foldl_keep, distinct_eq_foldl_keep, List.foldl_append, List.foldl_append,
    List.foldl_cons, keep_of_mem known]

/-- What occurs in a list, each entry once and in the order of the first occurrences. -/
structure FirstOccurrences (all firsts : List String) : Prop where
  nodup : firsts.Nodup
  mem_iff : ∀ entry, entry ∈ firsts ↔ entry ∈ all
  ordered : firsts.Pairwise fun a b => all.idxOf a < all.idxOf b

/-- The public identities of the distinct users are in the order in which they first occur. -/
theorem ordered_map_distinct (users : List Catalog.User) :
    ((distinct users).map Catalog.User.publicId).Pairwise fun a b =>
      (users.map Catalog.User.publicId).idxOf a < (users.map Catalog.User.publicId).idxOf b := by
  -- By induction on the users, of whom the first one occurs before all others.
  induction users with
  | nil => exact .nil
  | cons user rest ih =>
    rw [distinct, List.map_cons, List.map_cons, List.pairwise_cons]
    -- Everyone behind the first user has another identity, which occurs one place further on.
    have other {id : String} (member : id ∈ ((distinct rest).filter fun other =>
        other.publicId ≠ user.publicId).map Catalog.User.publicId) : user.publicId ≠ id := by
      obtain ⟨found, kept, rfl⟩ := List.mem_map.mp member
      have different := (List.mem_filter.mp kept).2
      rw [decide_eq_true_eq] at different
      exact different.symm
    constructor
    · intro id member
      rw [List.idxOf_cons_self, List.idxOf_cons_ne _ (other member)]
      exact Nat.succ_pos _
    · refine (ih.sublist (List.filter_sublist.map _)).imp_of_mem fun first second earlier => ?_
      rw [List.idxOf_cons_ne _ (other first), List.idxOf_cons_ne _ (other second)]
      exact Nat.succ_lt_succ earlier

/-- The public identities of the distinct users are those of all users at their first occurrences.
-/
theorem firstOccurrences_distinct (users : List Catalog.User) :
    FirstOccurrences (users.map Catalog.User.publicId)
      ((distinct users).map Catalog.User.publicId) :=
  ⟨nodup_map_distinct users, fun _ => mem_map_distinct, ordered_map_distinct users⟩

/-- The subject of the request has a public identity. -/
def isSubject (id : String) : Predicate :=
  .compareWithRequest .eq "public_id" id "subject"

/-- The subject of the request has one of some public identities, if there are any: a single
comparison stands for itself, and several are alternatives. -/
def isOneOf? : List String → Option Predicate
  | [] => none
  | [id] => some (isSubject id)
  | ids => some (.logical .or (ids.map isSubject))

/-- The predicate of the users is about their distinct public identities. -/
theorem usersPredicate?_eq_isOneOf? (users : List Catalog.User) :
    usersPredicate? users false = isOneOf? ((distinct users).map Catalog.User.publicId) := by
  -- A user contributes the public identity, and nothing of the name.
  have each : ((distinct users).map fun user => user.predicate false) =
      ((distinct users).map Catalog.User.publicId).map isSubject := by
    rw [List.map_map]
    rfl
  rw [usersPredicate?, each]
  rcases (distinct users).map Catalog.User.publicId with _ | ⟨id, _ | ⟨other, rest⟩⟩ <;> rfl

/-- A policy or its preview, or the error in its place, does not change when a user is selected
again behind the first selection, whatever the name, or such a user is left out. The grant of a
policy is about the public identities of the users, each once and in the order of their first
occurrences, next to the terms of the rule, the action and the cap. -/
theorem assemble_repeated (delegation : Delegation) (book : Book)
    (action : Option Catalog.Action) :
    (∀ (before : List Catalog.User) (user : Catalog.User) (after : List Catalog.User)
        (masked : Bool), user.publicId ∈ before.map Catalog.User.publicId →
      { delegation with users := before ++ user :: after }.assemble book action masked =
        { delegation with users := before ++ after }.assemble book action masked) ∧
    ∀ policy, delegation.assemble book action false = .ok policy →
      ∃ ids, FirstOccurrences (delegation.users.map Catalog.User.publicId) ids ∧
        policy.body.grant = .combine .and
          [(delegation.grantRule.bind book.get?).map Rule.predicate, isOneOf? ids,
            action.map Catalog.Action.predicate, delegation.cap.map capPredicate].reduceOption := by
  -- Both parts are about the term of the users, the only one that depends on them.
  constructor
  · -- Repeated or not, the users contribute the same term.
    intro before user after masked repeated
    refine assemble_of_usersTerm_eq rfl ?_ book action
    rw [usersTerm, usersTerm, distinct_append_cons repeated]
  · intro policy assembled
    refine ⟨_, firstOccurrences_distinct delegation.users, ?_⟩
    rw [grant_of_assemble assembled, possibleTerms, usersPredicate?_eq_isOneOf?]

/-- Users of whom one is selected twice have the policy of the users without the repetition, and
its grant is about two public identities. -/
theorem assemble_repeated_nested :
    let once := { nested with users := [⟨"User 1", "a"⟩, ⟨"User 2", "b"⟩] }
    ∃ policy ids, nested.assemble nestedBook none false = .ok policy ∧
      once.assemble nestedBook none false = .ok policy ∧ FirstOccurrences ["a", "b", "a"] ids ∧
      policy.body.grant = .combine .and
        [some (.logical .or [capPredicate 5, capPredicate 5]), isOneOf? ids, none,
          some (capPredicate 2)].reduceOption := by
  intro once
  -- The hash function is known, so that there is a policy.
  have known : Algorithm.ofName "sha-256" = .ok .sha256 := by rfl
  have resolved : nested.resolve nestedBook = .ok ⟨nestedBook.get? ⟨3⟩, none⟩ := by rfl
  obtain ⟨policy, assembled⟩ := exists_assemble resolved known none false
  have same : nested.assemble nestedBook none false = once.assemble nestedBook none false :=
    (assemble_repeated nested nestedBook none).1 once.users ⟨"User 3", "a"⟩ [] false (by decide)
  obtain ⟨ids, first, grant⟩ := (assemble_repeated nested nestedBook none).2 policy assembled
  exact ⟨policy, ids, assembled, same ▸ assembled, first, grant⟩

end Warrant.Delegation
