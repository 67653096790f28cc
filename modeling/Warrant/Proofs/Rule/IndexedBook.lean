import Mathlib.Data.List.Nodup
import Warrant.Proofs.Rule.History

/-! Books that find their rules in a map, and list them in an order of identifiers that is kept
beside it. The two parts never drift apart, so that such books answer like lists of rules. -/

namespace Warrant

namespace RuleId

instance : Std.TransCmp RuleId.compare :=
  inferInstanceAs (Std.TransCmp (compareOn fun id : RuleId => id.bits.toNat))

instance : Std.LawfulEqCmp RuleId.compare where
  eq_of_compare {a b} same := by
    -- The bits are the number by which identifiers are compared.
    cases a
    cases b
    exact congrArg RuleId.mk (BitVec.eq_of_toNat_eq (Nat.compare_eq_eq.mp same))

end RuleId

/-- A book in two parts: the rules under their identifiers, and the identifiers in the order of
their entry. Nothing in it says that both know the same identifiers. -/
structure IndexedBook where
  held : Std.TreeMap RuleId Rule RuleId.compare
  order : List RuleId

namespace IndexedBook

/-- The book without rules. -/
def empty : IndexedBook := ⟨∅, []⟩

/-- The rule that is held under an identifier. -/
def get? (book : IndexedBook) (id : RuleId) : Option Rule :=
  book.held[id]?

/-- Holds a rule under its identifier, which is new at the end of the order if no rule was held
there, and gives the rule that was. -/
def put (book : IndexedBook) (rule : Rule) : Option Rule × IndexedBook :=
  match book.held[rule.id]? with
  | some previous => (some previous, ⟨book.held.insert rule.id rule, book.order⟩)
  | none => (none, ⟨book.held.insert rule.id rule, book.order ++ [rule.id]⟩)

/-- Takes out the rule under an identifier, and that identifier out of the order, and gives the
rule back. -/
def remove (book : IndexedBook) (id : RuleId) : Option Rule × IndexedBook :=
  match book.held[id]? with
  | some previous => (some previous, ⟨book.held.erase id, book.order.filter (· ≠ id)⟩)
  | none => (none, book)

/-- The number of rules that are held. -/
def size (book : IndexedBook) : Nat :=
  book.held.size

/-- The rules in the order of their identifiers. Identifiers without a rule are passed over. -/
def rules (book : IndexedBook) : List Rule :=
  book.order.filterMap book.get?

/-- The book into which rules were put one after the other. -/
def ofList (rules : List Rule) : IndexedBook :=
  rules.foldl (fun book rule => (book.put rule).2) empty

/-- The two parts of a book know the same rules as a book that is a list, in the same order. -/
structure InStep (indexed : IndexedBook) (book : Book) : Prop where
  held : ∀ id, indexed.held[id]? = book.get? id
  order : indexed.order = book.rules.map Rule.id

variable {indexed : IndexedBook} {book : Book}

/-- The empty books are in step. -/
theorem inStep_empty : empty.InStep .empty :=
  ⟨fun _ => Std.TreeMap.getElem?_emptyc, rfl⟩

/-- A rule that is put into both books leaves them in step, and both give the same rule back. -/
theorem inStep_put (inStep : indexed.InStep book) (rule : Rule) :
    (indexed.put rule).1 = (book.put rule).1 ∧ (indexed.put rule).2.InStep (book.put rule).2 := by
  -- The two books agree under every identifier, whichever of them the rule was put under.
  have held : ∀ id, (indexed.held.insert rule.id rule)[id]? = (book.enter rule).get? id := by
    intro id
    rw [Std.TreeMap.getElem?_insert, Book.get?_enter, inStep.held]
    simp only [Std.LawfulEqCmp.compare_eq_iff_eq, @eq_comm RuleId id]
  have ids := Book.map_id_place rule book.rules
  -- The order grows exactly when the list of identifiers does.
  rw [put, inStep.held, Book.put]
  cases previous : book.get? rule.id with
  -- An old rule is replaced under its identifier, which stays where it is.
  | some old =>
    obtain ⟨inside, same⟩ := Book.get?_eq_some_iff.mp previous
    rw [if_pos (same ▸ List.mem_map_of_mem inside)] at ids
    exact ⟨rfl, held, inStep.order.trans ids.symm⟩
  -- A new identifier goes to the end of both.
  | none =>
    rw [if_neg (Book.get?_eq_none_iff.mp previous)] at ids
    refine ⟨rfl, held, ?_⟩
    rw [inStep.order]
    exact ids.symm

/-- A rule that is taken out of both books leaves them in step, and both give it back. -/
theorem inStep_remove (inStep : indexed.InStep book) (id : RuleId) :
    (indexed.remove id).1 = (book.remove id).1 ∧
      (indexed.remove id).2.InStep (book.remove id).2 := by
  -- The identifier leaves the order exactly when it leaves the map.
  have ids : (book.erase id).rules.map Rule.id = (book.rules.map Rule.id).filter (· ≠ id) := by
    rw [List.filter_map]
    rfl
  rw [remove, inStep.held, Book.remove]
  cases previous : book.get? id with
  -- A rule that is there leaves the map, and its identifier the order.
  | some old =>
    refine ⟨rfl, fun other => ?_, ?_⟩
    · rw [Std.TreeMap.getElem?_erase, Book.get?_erase, inStep.held]
      simp only [Std.LawfulEqCmp.compare_eq_iff_eq, @eq_comm RuleId other]
    · rw [ids, ← inStep.order]
  | none =>
    refine ⟨rfl, fun other => ?_, ?_⟩
    · rw [Book.get?_erase, inStep.held]
      split
      · rename_i same
        rw [same, previous]
      · rfl
    · -- No rule has the identifier, so that nothing is taken out of the order.
      have absent := Book.get?_eq_none_iff.mp previous
      rw [ids, inStep.order, List.filter_eq_self.mpr]
      intro other member
      exact decide_eq_true fun same => absent (same ▸ member)

/-- Books into which the same rules are put stay in step. -/
theorem inStep_foldl_put (inStep : indexed.InStep book) (rules : List Rule) :
    (rules.foldl (fun book rule => (book.put rule).2) indexed).InStep
      (rules.foldl Book.enter book) := by
  -- By induction on the rules, from books that are in step already.
  induction rules generalizing indexed book with
  | nil => exact inStep
  | cons rule rest ih => exact ih (inStep_put inStep rule).2

/-- Books in step list the same rules: every identifier in the order has one. -/
theorem InStep.rules_eq (inStep : indexed.InStep book) : indexed.rules = book.rules := by
  -- No identifier of the order is passed over, since the map has a rule under each of them.
  have found : ∀ rule ∈ book.rules, (indexed.get? ∘ Rule.id) rule = some rule := by
    intro rule inside
    rw [Function.comp_apply, get?, inStep.held]
    exact Book.get?_eq_some_iff.mpr ⟨inside, rfl⟩
  rw [rules, inStep.order, List.filterMap_map, List.filterMap_congr found, List.filterMap_some]

/-- Books in step hold as many rules as they list. -/
theorem InStep.size_eq (inStep : indexed.InStep book) : indexed.size = book.rules.length := by
  -- The keys of the map are the identifiers in the order, each of them once.
  have same : ∀ id, id ∈ indexed.held.keys ↔ id ∈ book.rules.map Rule.id := by
    intro id
    rw [Std.TreeMap.mem_keys, Std.TreeMap.mem_iff_isSome_getElem?, inStep.held,
      ← Option.ne_none_iff_isSome, ne_eq, Book.get?_eq_none_iff, not_not]
  have perm := (List.perm_ext_iff_of_nodup Std.TreeMap.nodup_keys book.distinct).mpr same
  rw [size, ← Std.TreeMap.length_keys, perm.length_eq, List.length_map]

end IndexedBook

/-- A call that changes a book: a rule is put in, the one under an identifier is taken out, or a new
book is made of a list of rules. -/
inductive Change where
  | put (rule : Rule)
  | remove (id : RuleId)
  | collect (rules : List Rule)

namespace Change

/-- What a call does to the rules, one after the other. A list replaces all that was there. -/
def events : Change → List Event
  | .put rule => [.entered rule]
  | .remove id => [.taken id]
  | .collect rules => .cleared :: rules.map .entered

/-- The book after a call. -/
def apply (book : Book) : Change → Book
  | .put rule => (book.put rule).2
  | .remove id => (book.remove id).2
  | .collect rules => .ofList rules

/-- The book in two parts after a call. -/
def applyIndexed (book : IndexedBook) : Change → IndexedBook
  | .put rule => (book.put rule).2
  | .remove id => (book.remove id).2
  | .collect rules => .ofList rules

/-- A call has the effect of its events. -/
theorem apply_eq_foldl (book : Book) (change : Change) :
    change.apply book = change.events.foldl (fun book event => event.apply book) book := by
  -- A list of rules first clears the book, and then each rule is an event of its own.
  cases change with
  | put rule => rfl
  | remove id => rfl
  | collect rules => rw [events, List.foldl_cons, List.foldl_map]; rfl

/-- Books in step are in step after a call to both. -/
theorem inStep_apply {indexed : IndexedBook} {book : Book} (inStep : indexed.InStep book)
    (change : Change) : (change.applyIndexed indexed).InStep (change.apply book) := by
  -- A list of rules starts from empty books, whatever was there.
  cases change with
  | put rule => exact (IndexedBook.inStep_put inStep rule).2
  | remove id => exact (IndexedBook.inStep_remove inStep id).2
  | collect rules => exact IndexedBook.inStep_foldl_put IndexedBook.inStep_empty rules

end Change

/-- The book that comes of calls, one after the other, on the empty book. -/
def Book.changed (changes : List Change) : Book :=
  changes.foldl Change.apply .empty

/-- The book in two parts that comes of calls, one after the other, on the empty one. -/
def IndexedBook.changed (changes : List Change) : IndexedBook :=
  changes.foldl Change.applyIndexed .empty

/-- The rules in a book that was changed are told by the events of all calls. -/
theorem Book.records_changed (changes : List Change) :
    (Book.changed changes).Records (changes.flatMap Change.events) := by
  -- The calls have the effects of their events, one after the other.
  have effects : Book.changed changes =
      (changes.flatMap Change.events).foldl (fun book event => event.apply book) .empty := by
    rw [Book.changed, List.foldl_flatMap]
    exact congrArg (changes.foldl · .empty) (funext₂ Change.apply_eq_foldl)
  rw [effects]
  exact records_foldl records_empty _

/-- Books that are changed by the same calls are in step. -/
theorem IndexedBook.inStep_changed (changes : List Change) :
    (IndexedBook.changed changes).InStep (Book.changed changes) := by
  -- By induction on the calls, from any books that are in step.
  have kept : ∀ {indexed : IndexedBook} {book : Book}, indexed.InStep book →
      (changes.foldl Change.applyIndexed indexed).InStep (changes.foldl Change.apply book) := by
    induction changes with
    | nil => exact id
    | cons change rest ih => exact fun inStep => ih (Change.inStep_apply inStep change)
  exact kept inStep_empty

/-- After any calls a book finds, and gives back when it is changed once more, the rule that was
entered last under an identifier and has not been taken out since. It lists each of these rules
once, in the order in which their identifiers were first entered since they were last taken out, and
counts what it lists. A book in two parts answers the same. -/
theorem Book.changed_follows_history (changes : List Change) :
    let book := Book.changed changes
    let indexed := IndexedBook.changed changes
    let events := changes.flatMap Change.events
    (∀ id rule, book.get? id = some rule ↔ rule.id = id ∧ Stands events rule) ∧
    (∀ rule previous, (book.put rule).1 = some previous ↔
      previous.id = rule.id ∧ Stands events previous) ∧
    (∀ id previous, (book.remove id).1 = some previous ↔
      previous.id = id ∧ Stands events previous) ∧
    (book.rules.Nodup ∧ ∀ rule, rule ∈ book.rules ↔ Stands events rule) ∧
    ((∀ rule ∈ book.rules, ∃ position, EnteredAt events rule.id position) ∧
      book.rules.Pairwise fun a b =>
        ∀ m n, EnteredAt events a.id m → EnteredAt events b.id n → m < n) ∧
    (∀ rule ∈ book.rules, book.get? rule.id = some rule) ∧
    book.size = book.rules.length ∧
    (indexed.get? = book.get? ∧ (∀ rule, (indexed.put rule).1 = (book.put rule).1) ∧
      (∀ id, (indexed.remove id).1 = (book.remove id).1) ∧
      indexed.rules = book.rules ∧ indexed.size = book.size) := by
  -- The list is told by its history, and the two parts are in step with the list.
  intro book indexed events
  have records : book.Records events := records_changed changes
  have inStep : indexed.InStep book := IndexedBook.inStep_changed changes
  have listed : ∀ rule ∈ book.rules, book.get? rule.id = some rule :=
    fun rule inside => get?_eq_some_iff.mpr ⟨inside, rfl⟩
  refine ⟨records.found, fun rule => records.found rule.id, records.found,
    ⟨.of_map Rule.id book.distinct, fun rule => ⟨?_, ?_⟩⟩, ⟨?_, ?_⟩, listed, rfl,
    funext inStep.held, fun rule => (IndexedBook.inStep_put inStep rule).1,
    fun id => (IndexedBook.inStep_remove inStep id).1, inStep.rules_eq, inStep.size_eq⟩
  · exact fun inside => ((records.found rule.id rule).mp (listed rule inside)).2
  · exact fun stands => (get?_eq_some_iff.mp ((records.found rule.id rule).mpr ⟨rfl, stands⟩)).1
  · exact fun rule inside => records.entered rule.id (List.mem_map_of_mem inside)
  · exact List.pairwise_map.mp records.inOrder

/-- A rule that is replaced keeps its place, and one that is taken out and entered again goes to the
end. -/
theorem Book.changed_follows_history_readded :
    let changes : List Change := [.collect [⟨⟨1⟩, .cap 5⟩, ⟨⟨2⟩, .cap 7⟩, ⟨⟨3⟩, .cap 8⟩],
      .put ⟨⟨1⟩, .cap 6⟩, .remove ⟨2⟩, .put ⟨⟨2⟩, .cap 9⟩]
    (Book.changed changes).rules = [⟨⟨1⟩, .cap 6⟩, ⟨⟨3⟩, .cap 8⟩, ⟨⟨2⟩, .cap 9⟩] ∧
      (IndexedBook.changed changes).rules = (Book.changed changes).rules ∧
      Stands (changes.flatMap Change.events) ⟨⟨1⟩, .cap 6⟩ := by
  -- The book is computed, and the history tells why its first rule stands in it.
  intro changes
  obtain ⟨_, _, _, ⟨_, standing⟩, _, _, _, _, _, _, listed, _⟩ :=
    Book.changed_follows_history changes
  have rules : (Book.changed changes).rules =
      [⟨⟨1⟩, .cap 6⟩, ⟨⟨3⟩, .cap 8⟩, ⟨⟨2⟩, .cap 9⟩] := rfl
  refine ⟨rules, listed, (standing _).mp ?_⟩
  rw [rules]
  exact List.mem_cons_self

end Warrant
