import Warrant.Exchange.Store
import Warrant.Proofs.Delegation.Assembly
import Warrant.Proofs.Exchange.Disk
import Warrant.Proofs.Json.Indented
import Warrant.Proofs.Policy.RoundTrip

/-! The store in a file answers like the store in memory, except that it cannot load a list with a
policy that nests as deep as a text may. -/

namespace Warrant

namespace Policy

/-- A policy that was read from a text of its own, or assembled. -/
inductive Obtained (policy : Policy) : Prop where
  /-- Read from a text. -/
  | read {text : String} (read : parse text = .ok policy)
  /-- Put into effect by a delegation, also as a preview. -/
  | assembled {delegation : Delegation} {book : Book} {action : Option Catalog.Action}
      {masked : Bool} (assembled : delegation.assemble book action masked = .ok policy)

/-- The body of a policy that was read is well-formed. -/
theorem wellFormed_of_ofJson {json : Json} {policy : Policy} (read : ofJson json = .ok policy) :
    policy.body.WellFormed := by
  -- A body that is missing is empty.
  have formed : (((json.member? "policy_object").map Body.ofJson).getD .empty).WellFormed := by
    cases json.member? "policy_object" with
    | none => exact ⟨.inl rfl, .inl rfl⟩
    | some value => exact Body.wellFormed_ofJson value
  unfold ofJson at read
  split at read
  · cases read
  · cases read
  · dsimp only at read
    split at read
    · cases read
      exact formed
    · obtain ⟨id, _, rfl⟩ := make_eq_ok_iff.mp (mapError_eq_ok_iff.mp read)
      exact formed

/-- The body of a policy that was obtained is well-formed. -/
theorem Obtained.wellFormed {policy : Policy} (obtained : policy.Obtained) :
    policy.body.WellFormed := by
  -- Readers make well-formed bodies only, and rules and users contribute well-formed terms.
  cases obtained with
  | @read text read =>
    rw [parse] at read
    split at read
    · exact wellFormed_of_ofJson read
    · cases read
  | assembled assembled =>
    obtain ⟨rules, _, _, sameBody, _⟩ := Delegation.of_assemble_eq_ok assembled
    exact sameBody ▸ Delegation.wellFormed_body _ _ _ _

/-- Policies hold no number. -/
theorem itemsExact_map_toJson (policies : List Policy) :
    Json.ItemsExact (policies.map toJson) := by
  induction policies with
  | nil => trivial
  | cons policy rest ih => exact ⟨policy.isExact_toJson, ih⟩

/-- A policy that is part of a document is read from what it writes there, unless it nests too
deep. -/
theorem ofDocument?_document (levels : Nat) (policy : Policy) :
    ofDocument? levels policy.toJson.document =
      if policy.toJson.depth ≤ levels then some policy.reread else none := by
  -- The reader counts the levels first, and then reads what the policy has written.
  rw [ofDocument?, Json.value?_document levels policy.isExact_toJson]
  by_cases fits : policy.toJson.depth ≤ levels
  · rw [if_pos fits, if_pos fits]
    simp [ofJson_toJson, Except.toOption]
  · rw [if_neg fits, if_neg fits]
    rfl

end Policy

/-- Whether all policies of a list can stand in a text one level below its top. -/
def areShallow (policies : List Policy) : Bool :=
  policies.all fun policy => policy.toJson.depth ≤ Json.maxDepth - 1

/-- A text with a visible character has a content. -/
theorem Text.trim_ne_nil {c : Char} {text : List Char} (visible : isBlank c = false)
    (member : c ∈ text) : trim text ≠ [] := by
  -- Trimming leaves nothing only of blanks.
  intro nothing
  rw [trim, trimEnd, List.reverse_eq_nil_iff, List.dropWhile_eq_nil_iff] at nothing
  -- The character is not among the blanks that are dropped in front.
  rw [← List.takeWhile_append_dropWhile (p := isBlank) (l := text), List.mem_append] at member
  have blank : isBlank c = true := by
    rcases member with front | behind
    · exact List.mem_takeWhile_imp front
    · exact nothing c (List.mem_reverse.mpr behind)
  rw [visible] at blank
  exact Bool.false_ne_true blank

/-- Well-formed policies are read from what a list of them writes, unless one nests too deep. -/
theorem mapM_ofDocument? {policies : List Policy}
    (formed : ∀ policy ∈ policies, policy.body.WellFormed) :
    (Json.itemDocuments (policies.map Policy.toJson)).mapM
        (Policy.ofDocument? (Json.maxDepth - 1)) =
      if areShallow policies then some policies else none := by
  -- Each policy is read by itself, and the first one that nests too deep spoils the list.
  induction policies with
  | nil => rfl
  | cons policy rest ih =>
    have same : policy.reread = policy := policy.reread_eq_iff.mpr (formed policy List.mem_cons_self)
    have others := ih fun other member => formed other (List.mem_cons_of_mem _ member)
    have whole : areShallow (policy :: rest) =
        (decide (policy.toJson.depth ≤ Json.maxDepth - 1) && areShallow rest) := List.all_cons
    rw [List.map_cons, Json.itemDocuments, List.mapM_cons, others, Policy.ofDocument?_document,
      same, whole]
    by_cases first : policy.toJson.depth ≤ Json.maxDepth - 1
    · cases areShallow rest <;> simp [first]
    · simp [first]

/-- A stored list of well-formed policies is read back, unless one of them nests too deep. -/
theorem readStored_storedText {policies : List Policy}
    (formed : ∀ policy ∈ policies, policy.body.WellFormed) :
    readStored (storedText policies) =
      if areShallow policies then .ok policies else .error .content := by
  -- The array is read item by item, and nothing but its depth can make it fail.
  let json : Json := .arr (policies.map Policy.toJson)
  have exact : json.IsExact := Policy.itemsExact_map_toJson policies
  have text : (storedText policies).toList = json.indent 0 := String.toList_ofList
  -- The bracket that opens the array is visible.
  have content : Text.trim (json.indent 0) ≠ [] := by
    have opening : '[' ∈ json.indent 0 := by
      cases policies <;> simp [json, Json.indent]
    exact Text.trim_ne_nil (by decide) opening
  have items : Document.listOf? (Policy.ofDocument? (Json.maxDepth - 1)) json.document =
      if areShallow policies then some policies else none :=
    mapM_ofDocument? formed
  rw [readStored, text, if_neg content, Json.read?_indent exact.firstFloat?, Option.bind_some, items]
  by_cases shallow : areShallow policies = true
  · rw [if_pos shallow, if_pos shallow]
  · rw [if_neg shallow, if_neg shallow]

/-- A call of a store. -/
inductive StoreCall where
  | store (policies : List Policy)
  | load

/-- What a store answers to a call: whether it has written a list, or the list that it has. -/
inductive StoreAnswer where
  | stored (written : Bool)
  | loaded (result : Except StoreError (List Policy))

/-- The answers of a store to calls, one after the other. -/
def StoreCall.answers {σ : Type} (step : σ → StoreCall → σ × StoreAnswer) :
    σ → List StoreCall → List StoreAnswer
  | _, [] => []
  | state, call :: rest => (step state call).2 :: answers step (step state call).1 rest

/-- What the store in memory does on a call. -/
def MemoryStore.step (memory : MemoryStore) : StoreCall → MemoryStore × StoreAnswer
  | .store policies => (memory.store policies, .stored true)
  | .load => (memory, .loaded (.ok memory.load))

/-- An answer of the store in memory as far as the store in a file can give it. -/
def StoreAnswer.limited : StoreAnswer → StoreAnswer
  | .loaded (.ok policies) =>
    .loaded (if areShallow policies then .ok policies else .error .content)
  | answer => answer

namespace FileStore

/-- What a store in a file does on a call. -/
def step (store : FileStore) (disk : Disk) : StoreCall → Disk × StoreAnswer
  | .store policies =>
    ((store.store policies disk).1, .stored (store.store policies disk).2)
  | .load => (disk, .loaded (store.load disk))

/-- The file of a store holds what is in memory, and is not there while nothing was stored. -/
structure Mirrors (store : FileStore) (disk : Disk) (memory : MemoryStore) : Prop where
  formed : ∀ policy ∈ memory.policies, policy.body.WellFormed
  kept : disk.holds store.path = false ∧ memory.policies = [] ∨
    disk.read? store.path = some (storedText memory.policies)

variable {store : FileStore} {disk : Disk} {memory : MemoryStore}

/-- A list that was stored stands in the file. -/
theorem read?_of_store {policies : List Policy} (stored : (store.store policies disk).2 = true) :
    (store.store policies disk).1.read? store.path = some (storedText policies) := by
  -- The disk after the call is the one that the file was saved on.
  cases done : store.store policies disk with
  | mk made written =>
    rw [done] at stored
    dsimp only at stored
    subst stored
    exact Disk.read?_of_save done

/-- The list in a file is loaded, unless it holds a policy that nests too deep. -/
theorem load_of_mirrors (mirrors : store.Mirrors disk memory) :
    store.load disk = if areShallow memory.policies then .ok memory.policies
      else .error .content := by
  -- Without a file both lists are empty, and else the stored text is read back.
  rcases mirrors.kept with ⟨absent, nothing⟩ | stored
  · rw [load, absent, nothing]
    rfl
  · rw [load, Disk.holds_of_read? stored, if_pos rfl, stored]
    exact readStored_storedText mirrors.formed

/-- After each call that does not fail to write, the file holds what is in memory. -/
theorem mirrors_step {call : StoreCall} (mirrors : store.Mirrors disk memory)
    (formed : ∀ policies, call = .store policies → ∀ policy ∈ policies, policy.body.WellFormed)
    (written : (store.step disk call).2 ≠ .stored false) :
    store.Mirrors (store.step disk call).1 (memory.step call).1 ∧
      (store.step disk call).2 = (memory.step call).2.limited := by
  -- Only a call to store changes disk and memory, and it changes both.
  cases call with
  | load =>
    -- A call to load leaves disk and memory alone.
    refine ⟨mirrors, ?_⟩
    simp only [step, MemoryStore.step, StoreAnswer.limited, load_of_mirrors mirrors,
      MemoryStore.load]
  | store policies =>
    -- What was in the file before does not matter, since the whole list is replaced.
    have saved : (store.store policies disk).2 = true := by
      simpa only [step, ne_eq, StoreAnswer.stored.injEq, Bool.not_eq_false] using written
    simp only [step, MemoryStore.step, StoreAnswer.limited, saved, and_true]
    exact ⟨formed policies rfl, .inr (read?_of_store saved)⟩

/-- Over all calls that do not fail to write, the store in a file answers like that in memory, as far
as it can. -/
theorem answers_of_mirrors {calls : List StoreCall} (mirrors : store.Mirrors disk memory)
    (formed : ∀ policies, StoreCall.store policies ∈ calls →
      ∀ policy ∈ policies, policy.body.WellFormed)
    (written : .stored false ∉ StoreCall.answers store.step disk calls) :
    StoreCall.answers store.step disk calls =
      (StoreCall.answers MemoryStore.step memory calls).map StoreAnswer.limited := by
  -- By induction on the calls: each of them leaves file and memory with the same list.
  induction calls generalizing disk memory with
  | nil => rfl
  | cons call rest ih =>
    rw [StoreCall.answers, List.mem_cons, not_or] at written
    obtain ⟨next, same⟩ := mirrors_step mirrors
      (fun policies first => formed policies (first ▸ List.mem_cons_self)) (Ne.symm written.1)
    rw [StoreCall.answers, StoreCall.answers, List.map_cons, same, ih next
      (fun policies member => formed policies (List.mem_cons_of_mem _ member)) written.2]

/-- A file that is not there mirrors the empty memory. -/
theorem mirrors_of_absent (absent : disk.holds store.path = false) :
    store.Mirrors disk .empty :=
  ⟨fun _ member => absurd member List.not_mem_nil, .inl ⟨absent, rfl⟩⟩

end FileStore

/-- The store in memory answers nothing that the store in a file could not, as long as no list has a
policy that nests too deep. -/
theorem MemoryStore.map_limited_answers {memory : MemoryStore} {calls : List StoreCall}
    (shallow : areShallow memory.policies = true)
    (each : ∀ policies, StoreCall.store policies ∈ calls → areShallow policies = true) :
    (StoreCall.answers step memory calls).map StoreAnswer.limited =
      StoreCall.answers step memory calls := by
  -- The list in memory is always the one that was stored last.
  induction calls generalizing memory with
  | nil => rfl
  | cons call rest ih =>
    have others : ∀ policies, StoreCall.store policies ∈ rest → areShallow policies = true :=
      fun policies member => each policies (List.mem_cons_of_mem _ member)
    rw [StoreCall.answers, List.map_cons]
    cases call with
    | load =>
      have same : (memory.step .load).2.limited = (memory.step .load).2 := by
        simp only [step, load, StoreAnswer.limited, shallow, if_true]
      rw [same]
      exact congrArg _ (ih shallow others)
    | store policies => exact congrArg _ (ih (each policies List.mem_cons_self) others)

namespace Predicate

/-- A comparison under connectives, one inside the other. -/
def tower : Nat → Predicate
  | 0 => capPredicate 5
  | height + 1 => .logical .and [tower height, .obligations []]

/-- Every connective adds the two levels of an object and its list. -/
theorem depth_tower (height : Nat) : (tower height).toJson.depth = 2 * height + 3 := by
  -- The obligations beside the lower floors are not as deep as these.
  induction height with
  | zero => rfl
  | succ height ih =>
    have duties : (toJson (.obligations [])).depth = 2 := by rfl
    rw [tower, toJson, operandsToJson, operandsToJson, operandsToJson]
    simp only [operation, Json.depth, Json.depthItems, Json.depthMembers, ih, duties]
    omega

/-- A tower is well-formed. -/
theorem wellFormed_tower (height : Nat) : (tower height).WellFormed := by
  -- Every floor joins two predicates that are no facts.
  have listLike : ∀ height, (tower height).isListLike = true := by
    intro height
    cases height <;> rfl
  induction height with
  | zero => exact .comparable (.fact _) (.fact _)
  | succ height ih =>
    exact .logical (Nat.le_refl 2)
      (List.forall_mem_cons.mpr ⟨listLike height, List.forall_mem_singleton.mpr rfl⟩)
      (List.forall_mem_cons.mpr ⟨ih, List.forall_mem_singleton.mpr (.obligations [])⟩)

end Predicate

namespace Policy

/-- A policy whose text nests as deep as a text may. -/
def deepest : Policy :=
  ⟨"sha-256", blank.id, { Body.empty with grant := .tower 61 }, ""⟩

/-- The text of the deepest policy nests 127 levels. -/
theorem depth_deepest : deepest.toJson.depth = 127 := by
  -- The policy and its body are two levels around the grant.
  have grant := Predicate.depth_tower 61
  have body : deepest.body.toJson.depth = 126 := by
    simp [deepest, Body.toJson, Body.empty, Body.obligationsToJson, Predicate.toJson, Json.depth,
      Json.depthMembers, grant]
  simp [toJson, PolicyId.toJson, Json.depth, Json.depthMembers, body]

end Policy

namespace FileStore

/-- Where no file is at first and every list is written, the store in a file answers to all calls
like the store in memory, as long as the policies are read from texts or assembled: what it loads is
the list that was stored last, or an error when a policy in that list nests more than 126 levels. -/
theorem answers_like_memory (store : FileStore) {disk : Disk} {calls : List StoreCall}
    (absent : disk.holds store.path = false)
    (obtained : ∀ policies, StoreCall.store policies ∈ calls →
      ∀ policy ∈ policies, policy.Obtained)
    (written : .stored false ∉ StoreCall.answers store.step disk calls) :
    StoreCall.answers store.step disk calls =
      (StoreCall.answers MemoryStore.step .empty calls).map StoreAnswer.limited ∧
    ((∀ policies, StoreCall.store policies ∈ calls →
        ∀ policy ∈ policies, policy.toJson.depth ≤ 126) →
      StoreCall.answers store.step disk calls =
        StoreCall.answers MemoryStore.step .empty calls) := by
  -- Every policy that was obtained is read back from its own part of the file.
  have limited := answers_of_mirrors (mirrors_of_absent absent)
    (fun policies member policy inside => (obtained policies member policy inside).wellFormed)
    written
  refine ⟨limited, fun shallow => ?_⟩
  rw [limited]
  refine MemoryStore.map_limited_answers rfl fun policies member => List.all_eq_true.mpr ?_
  exact fun policy inside => decide_eq_true (shallow policies member policy inside)

/-- A store in a file of its own. -/
def sample : FileStore := ⟨⟨"policies.json"⟩⟩

/-- The disk on which the sample store holds a list. -/
def sampleDisk (policies : List Policy) : Disk :=
  ⟨[(["policies.json"], storedText policies)], []⟩

/-- On the empty disk a list is written to the sample store. -/
theorem store_sample (policies : List Policy) :
    sample.store policies .empty = (sampleDisk policies, true) := by
  rfl

/-- Another list is written in the place of the first. -/
theorem store_sample_again (before policies : List Policy) :
    sample.store policies (sampleDisk before) = (sampleDisk policies, true) := by
  rfl

/-- The policy of the guarded body, under an identifier that nobody has confirmed. -/
def guarded : Policy := ⟨"sha-256", Policy.blank.id, Policy.guardedBody, "2.0"⟩

/-- The guarded policy is read from its own text. -/
theorem obtained_guarded : guarded.Obtained := by
  -- The guarded body is read from a document, and thus well-formed, and the policy nests nine levels.
  have formed : guarded.body.WellFormed := by
    have read := Body.wellFormed_ofJson Policy.guardedDocument
    rw [Policy.ofJson_guardedDocument] at read
    exact read
  have fits : guarded.toJson.depth ≤ Json.maxDepth := by decide
  have read : Policy.parse guarded.toJson.compact = .ok guarded := by
    rw [Policy.parse_compact, if_pos fits, guarded.reread_eq_iff.mpr formed]
  exact .read read

/-- Nothing, then two policies, then three, and then none are stored and loaded. -/
def sampleCalls : List StoreCall :=
  [.load, .store [guarded, .blank], .load, .store [.blank, guarded, guarded], .load, .load,
    .store [], .load]

/-- Each list of the sample calls is loaded as it was stored last. -/
theorem answers_like_memory_sampleCalls :
    StoreCall.answers sample.step .empty sampleCalls =
      [.loaded (.ok []), .stored true, .loaded (.ok [guarded, .blank]), .stored true,
        .loaded (.ok [.blank, guarded, guarded]), .loaded (.ok [.blank, guarded, guarded]),
        .stored true, .loaded (.ok [])] := by
  -- The disk is empty at first, and every list is written to it.
  have absent : Disk.empty.holds sample.path = false := by decide
  have written : .stored false ∉ StoreCall.answers sample.step .empty sampleCalls := by
    simp [sampleCalls, StoreCall.answers, step, store_sample, store_sample_again]
  -- There are two policies in the lists, one that was read and one that was assembled.
  have among : ∀ policies, StoreCall.store policies ∈ sampleCalls →
      ∀ policy ∈ policies, policy = guarded ∨ policy = .blank := by
    simp [sampleCalls]
  have obtained : ∀ policies, StoreCall.store policies ∈ sampleCalls →
      ∀ policy ∈ policies, policy.Obtained := by
    intro policies member policy inside
    rcases among policies member policy inside with rfl | rfl
    · exact obtained_guarded
    · exact .assembled Delegation.assemble_empty
  have shallow : ∀ policies, StoreCall.store policies ∈ sampleCalls →
      ∀ policy ∈ policies, policy.toJson.depth ≤ 126 := by
    intro policies member policy inside
    rcases among policies member policy inside with rfl | rfl <;> decide
  -- All the answers are those of the memory, which are computed.
  rw [(answers_like_memory sample absent obtained written).2 shallow]
  rfl

/-- The deepest policy is read from its text and stored, but it is not loaded from the file. -/
theorem deepest_not_loaded :
    Disk.empty.holds sample.path = false ∧
    Policy.parse Policy.deepest.toJson.compact = .ok Policy.deepest ∧
    StoreCall.answers sample.step .empty [.store [Policy.deepest], .load] =
      [.stored true, .loaded (.error .content)] ∧
    StoreCall.answers MemoryStore.step .empty [.store [Policy.deepest], .load] =
      [.stored true, .loaded (.ok [Policy.deepest])] := by
  -- The policy is well-formed, and what it nests is counted with the levels of its tower.
  have absent : Disk.empty.holds sample.path = false := by decide
  have formed : Policy.deepest.body.WellFormed := ⟨.inl rfl, .inr (Predicate.wellFormed_tower 61)⟩
  -- In a text of its own the policy fits, but not inside the array of the file.
  have deep : areShallow [Policy.deepest] = false := by
    simp [areShallow, Policy.depth_deepest, Json.maxDepth]
  refine ⟨absent, ?_, ?_, rfl⟩
  · rw [Policy.parse_compact, Policy.depth_deepest, Policy.deepest.reread_eq_iff.mpr formed]
    exact if_pos (Nat.le_refl 127)
  · have written : .stored false ∉
        StoreCall.answers sample.step .empty [.store [Policy.deepest], .load] := by
      simp [StoreCall.answers, step, store_sample]
    rw [answers_of_mirrors (mirrors_of_absent absent) _ written]
    · simp [StoreCall.answers, MemoryStore.step, MemoryStore.load, MemoryStore.store,
        StoreAnswer.limited, deep]
    · intro policies member policy inside
      simp only [List.mem_cons, reduceCtorEq, StoreCall.store.injEq, List.not_mem_nil,
        or_false] at member
      rw [member, List.mem_singleton] at inside
      exact inside ▸ formed

end FileStore

end Warrant
