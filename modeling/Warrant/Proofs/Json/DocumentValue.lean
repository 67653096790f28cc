import Warrant.Json.Value
import Warrant.Proofs.Json.ReadBack
import Warrant.Proofs.Json.Trees

/-! The compact text of a value is read as its members in key order, unless it nests too deep. -/

namespace Warrant

namespace Numeral

/-- The digits of a number stand for that number. -/
theorem whole?_integer (n : Int) : whole? (Text.integer n) = some n := by
  -- The sign in front is a minus or none, since no number starts with a sign.
  -- What stands behind the sign is the digits of the size.
  have digits : (Text.natural n.natAbs).all Char.isDigit = true :=
    List.all_eq_true.mpr fun _ member => Text.isDigit_of_mem_natural member
  have present : Text.natural n.natAbs ≠ [] := Nat.toDigits_ne_nil
  have size : Nat.ofDigitChars 10 (Text.natural n.natAbs) 0 = n.natAbs := by
    simp [Text.natural]
  have sign : Decimal.splitSign (Text.integer n) = (decide (n < 0), Text.natural n.natAbs) := by
    obtain ⟨first, rest, form, digit⟩ := Text.natural_eq_cons n.natAbs
    have noSign {c : Char} (mark : c.isDigit = false) (tail : List Char) :
        first :: rest ≠ c :: tail := by
      intro same
      rw [(List.cons.inj same).1, mark] at digit
      exact Bool.false_ne_true digit
    rw [Text.integer, form]
    by_cases negative : n < 0
    · simp [negative, Decimal.splitSign]
    · rw [if_neg negative, List.nil_append, Decimal.splitSign, decide_eq_false negative]
      · exact fun tail => noSign (by decide) tail
      · exact fun tail => noSign (by decide) tail
  -- The sign is put back in front of the size.
  rw [whole?, sign]
  simp only [digits, size, present, ne_eq, not_false_eq_true, and_self, if_true, decide_eq_true_eq,
    Option.some.injEq]
  split <;> omega

/-- An integer of the machine is read back. -/
theorem value?_integer {n : Int} (fits : isMachineInteger n = true) :
    value? (Text.integer n) = some (.int n) := by
  -- The digits of zero stand without a minus.
  have noMinus : ¬ (n = 0 ∧ (Text.integer n).head? = some '-') := by
    rintro ⟨rfl, minus⟩
    exact absurd minus (by decide)
  have whole : integer? (Text.integer n) = some n := by
    rw [integer?, whole?_integer]
    exact if_pos ⟨fits, noMinus⟩
  rw [value?, whole]

end Numeral

namespace Json

mutual

/-- Every number in a tree is an integer of the machine. -/
def IsExact : Json → Prop
  | .int n => Numeral.isMachineInteger n = true
  | .float _ => False
  | .arr items => ItemsExact items
  | .obj members => MembersExact members
  | _ => True

/-- Every number in the items is an integer of the machine. -/
def ItemsExact : List Json → Prop
  | [] => True
  | item :: rest => item.IsExact ∧ ItemsExact rest

/-- Every number in the members is an integer of the machine. -/
def MembersExact : List (String × Json) → Prop
  | [] => True
  | (_, value) :: rest => value.IsExact ∧ MembersExact rest

end

/-- Items are exact when each of them is. -/
theorem itemsExact_iff (items : List Json) : ItemsExact items ↔ ∀ item ∈ items, item.IsExact := by
  induction items with
  | nil => simp [ItemsExact]
  | cons item rest ih => simp [ItemsExact, ih]

/-- Members are exact when each of them is. -/
theorem membersExact_iff (members : List (String × Json)) :
    MembersExact members ↔ ∀ member ∈ members, member.2.IsExact := by
  induction members with
  | nil => simp [MembersExact]
  | cons member rest ih => simp [MembersExact, ih]

/-- An exact tree holds no float. -/
theorem IsExact.firstFloat? {json : Json} (exact : json.IsExact) : json.firstFloat? = none := by
  -- By induction on the tree: a float is never exact.
  induction json using induction with
  | null | bool _ | int _ | str _ => simp [Json.firstFloat?]
  | float value => exact exact.elim
  | arr items each =>
    rw [IsExact, itemsExact_iff] at exact
    rw [Json.firstFloat?, firstFloatItem?_eq_none_iff]
    exact fun item inside => each item inside (exact item inside)
  | obj members each =>
    rw [IsExact, membersExact_iff] at exact
    rw [Json.firstFloat?, firstFloatMember?_eq_none_iff]
    exact fun member inside => each member inside (exact member inside)

mutual

/-- The document of an exact tree has the value of the tree, unless it nests too deep. -/
theorem value?_document : ∀ {json : Json} (levels : Nat), json.IsExact →
    json.document.value? levels = if json.depth ≤ levels then some json.sorted else none
  -- By induction on the tree: arrays and objects use up one level each.
  | .null, _, _ | .bool _, _, _ | .str _, _, _ => by
    simp [document, Document.value?, depth, sorted]
  | .int n, _, exact => by
    simp [document, Document.value?, depth, sorted, Numeral.value?_integer exact]
  | .arr items, 0, _ | .obj items, 0, _ => by
    simp [document, Document.value?, depth]
  | .arr items, inner + 1, exact => by
    rw [document, Document.value?, valueItems?_itemDocuments inner exact, depth, sorted]
    by_cases fits : depthItems items ≤ inner <;> simp [fits]
  | .obj members, inner + 1, exact => by
    rw [document, Document.value?, valueMembers?_memberDocuments inner exact, depth, sorted]
    by_cases fits : depthMembers members ≤ inner <;> simp [fits]

/-- The documents of exact items have the values of the items, unless one nests too deep. -/
theorem valueItems?_itemDocuments : ∀ {items : List Json} (levels : Nat), ItemsExact items →
    Document.valueItems? levels (itemDocuments items) =
      if depthItems items ≤ levels then some (sortedItems items) else none
  -- All items nest no deeper than the levels when the first and the others do.
  | [], _, _ => by simp [itemDocuments, Document.valueItems?, depthItems, sortedItems]
  | item :: rest, levels, exact => by
    rw [itemDocuments, Document.valueItems?, value?_document levels exact.1,
      valueItems?_itemDocuments levels exact.2, depthItems, sortedItems]
    simp only [Nat.max_le]
    by_cases first : item.depth ≤ levels <;> by_cases others : depthItems rest ≤ levels <;>
      simp [first, others]

/-- The documents of exact members have the values of the members, unless one nests too deep. -/
theorem valueMembers?_memberDocuments : ∀ {members : List (String × Json)} (levels : Nat),
    MembersExact members → Document.valueMembers? levels (memberDocuments members) =
      if depthMembers members ≤ levels then some (sortedMembers members) else none
  -- A member nests as deep as its value, whatever its key.
  | [], _, _ => by simp [memberDocuments, Document.valueMembers?, depthMembers, sortedMembers]
  | (key, value) :: rest, levels, exact => by
    rw [memberDocuments, Document.valueMembers?, value?_document levels exact.1,
      valueMembers?_memberDocuments levels exact.2, depthMembers, sortedMembers]
    simp only [Nat.max_le]
    by_cases first : value.depth ≤ levels <;> by_cases others : depthMembers rest ≤ levels <;>
      simp [first, others]

end

/-- The compact text of an exact tree is read as the value of the tree, unless it nests too deep. -/
theorem parse?_compact {json : Json} (exact : json.IsExact) :
    parse? json.compact = if json.depth ≤ maxDepth then some json.sorted else none := by
  -- The text is read as the document that it writes, and that has the value of the tree.
  rw [parse?, compact, String.toList_ofList, read?_write exact.firstFloat?]
  exact value?_document maxDepth exact

end Json

end Warrant
