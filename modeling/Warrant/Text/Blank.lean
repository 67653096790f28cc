/-! Blank characters and the text left when they are removed from its ends. -/

namespace Warrant.Text

/-- The characters with the Unicode property White_Space. -/
def isBlank (c : Char) : Bool :=
  (9 ≤ c.toNat && c.toNat ≤ 13) || c.toNat == 0x20 || c.toNat == 0x85 || c.toNat == 0xA0 ||
    c.toNat == 0x1680 || (0x2000 ≤ c.toNat && c.toNat ≤ 0x200A) || c.toNat == 0x2028 ||
    c.toNat == 0x2029 || c.toNat == 0x202F || c.toNat == 0x205F || c.toNat == 0x3000

/-- The characters after the leading blanks. -/
def trimStart (text : List Char) : List Char :=
  text.dropWhile isBlank

/-- The characters before the trailing blanks. -/
def trimEnd (text : List Char) : List Char :=
  (text.reverse.dropWhile isBlank).reverse

/-- The characters between the leading and the trailing blanks. -/
def trim (text : List Char) : List Char :=
  trimEnd (trimStart text)

/-- No digit is blank. -/
theorem isBlank_of_isDigit {c : Char} (digit : c.isDigit = true) : isBlank c = false := by
  -- The ten digits lie between the space and the other blanks.
  simp only [Char.isDigit, Bool.and_eq_true, decide_eq_true_eq, ge_iff_le,
    UInt32.le_iff_toNat_le] at digit
  have low : 48 ≤ c.toNat := digit.1
  have high : c.toNat ≤ 57 := digit.2
  simp [isBlank]
  omega

/-- A text that starts with a visible character keeps its start. -/
theorem trimStart_cons {c : Char} (rest : List Char) (visible : isBlank c = false) :
    trimStart (c :: rest) = c :: rest := by
  -- Dropping stops at the first character that is not blank.
  simp [trimStart, visible]

/-- Leading blanks leave no trace. -/
theorem trimStart_append (blanks rest : List Char) (blank : ∀ c ∈ blanks, isBlank c = true) :
    trimStart (blanks ++ rest) = trimStart rest := by
  -- Each blank of the run is dropped in turn.
  induction blanks with
  | nil => rfl
  | cons c blanks ih =>
    simp only [trimStart, List.cons_append, blank c (by simp), List.dropWhile_cons_of_pos]
    exact ih fun d member => blank d (by simp [member])

/-- A text without blanks is left as it is. -/
theorem trim_of_visible {text : List Char} (visible : ∀ c ∈ text, isBlank c = false) :
    trim text = text := by
  -- Neither the first character nor the last one is dropped.
  have kept : ∀ {part : List Char}, (∀ c ∈ part, isBlank c = false) →
      part.dropWhile isBlank = part := by
    intro part shown
    cases part with
    | nil => rfl
    | cons c rest => exact trimStart_cons rest (shown c List.mem_cons_self)
  have backwards : ∀ c ∈ text.reverse, isBlank c = false :=
    fun c member => visible c (List.mem_reverse.mp member)
  rw [trim, trimStart, kept visible, trimEnd, kept backwards, List.reverse_reverse]

end Warrant.Text
