import Warrant.Json.Document

/-! JSON documents in YAML files: what YAML refuses of them, and what it reads in the line breaks
that stand in their strings. -/

namespace Warrant.Yaml

/-- The characters that a file may hold: no controls but tabs and line breaks, and no noncharacter
of the first plane. -/
def isPrintable (c : Char) : Bool :=
  c = '\t' || c = '\n' || c = '\r' || (0x20 ≤ c.toNat && c.toNat ≤ 0x7E) || c.toNat = 0x85 ||
    (0xA0 ≤ c.toNat && c.toNat ≤ 0xFFFD) || 0x10000 ≤ c.toNat

/-- The line breaks that JSON does not know, and so admits in strings: the next line, the line
separator and the paragraph separator. -/
def isWideBreak (c : Char) : Bool :=
  c.toNat = 0x85 || c.toNat = 0x2028 || c.toNat = 0x2029

/-- All line breaks. -/
def isBreak (c : Char) : Bool :=
  c = '\n' || c = '\r' || isWideBreak c

/-- Whether a line is a mark between documents: three dashes or dots with a blank behind them. -/
def isMark : List Char → Bool
  | first :: second :: third :: behind :: _ =>
    (first = '-' || first = '.') && second = first && third = first &&
      (behind = ' ' || behind = '\t' || isBreak behind)
  | _ => false

/-- Whether some line after the first is a mark between documents. -/
def hasMark : List Char → Bool
  | [] => false
  | c :: rest => (isBreak c && isMark rest) || hasMark rest

/-- Whether some escape writes half of a surrogate pair. -/
def hasSurrogate : List Char → Bool
  | '\\' :: 'u' :: first :: second :: rest =>
    (first.toLower = 'd' && (Text.hexDigit? second).any (8 ≤ ·)) || hasSurrogate rest
  | '\\' :: _ :: rest => hasSurrogate rest
  | _ :: rest => hasSurrogate rest
  | [] => false

/-- Whether tabs stand only where they may, inside the document or on the line where it ends. -/
def tabsInPlace (text : List Char) : Bool :=
  let before := text.takeWhile Document.isSpace
  let after := (text.reverse.takeWhile Document.isSpace).reverse
  !before.contains '\t' && !(after.dropWhile fun c => !isBreak c).contains '\t'

/-- How far a string has come that may turn out to be a key: the bytes since its opening quote, and
whether a line ended among them. -/
structure Key where
  length : Nat
  broken : Bool
deriving DecidableEq

/-- The key with one more character. -/
def Key.push (key : Key) (c : Char) : Key :=
  ⟨key.length + c.utf8Size, key.broken || isBreak c⟩

/-- Where a reader of keys is: outside strings, in one, behind a backslash in one, or behind one. -/
inductive KeyReader where
  | outside
  | inside (key : Key)
  | escaped (key : Key)
  | behind (key : Key)
deriving DecidableEq

/-- Reads one character. The colon of a key has to come on its line, and at most 1024 bytes after
its opening quote. -/
def KeyReader.next (reader : KeyReader) (c : Char) : Option KeyReader :=
  match reader with
  | .outside => some (if c = '"' then .inside ⟨1, false⟩ else .outside)
  | .inside key =>
    -- A quote ends the key, unless a backslash stands before it.
    some (if c = '"' then .behind (key.push c)
      else if c = '\\' then .escaped (key.push c)
      else .inside (key.push c))
  | .escaped key => some (.inside (key.push c))
  | .behind key =>
    -- Only a colon makes a key of the string, and then its length and its line breaks count.
    if c = ':' then (if key.length ≤ 1024 && !key.broken then some .outside else none)
    else some (if Document.isSpace c then .behind (key.push c) else .outside)

/-- Whether every key is in reach of its colon. -/
def keysInReach (text : List Char) : Bool :=
  (text.foldlM KeyReader.next .outside).isSome

/-- A line break as it is read: the next line counts as a line feed, and the separators as
themselves. -/
def lineBreak (c : Char) : List Char :=
  if c.toNat = 0x85 then ['\\', 'n'] else [c]

/-- What a run of spaces and line breaks in a string is read as. Spaces beside a break are dropped,
and a single next line folds into a space. -/
def settle (run : List Char) : List Char :=
  match run.filter isWideBreak with
  | [] => run
  | first :: others =>
    if first.toNat ≠ 0x85 then (first :: others).flatMap lineBreak
    else if others = [] then [' ']
    else others.flatMap lineBreak

/-- Where a reader of strings is: outside them, in one behind a run of spaces and line breaks, or
behind a backslash in one. -/
inductive FoldReader where
  | outside
  | inside (run : List Char)
  | escaped
deriving DecidableEq

/-- The text with the runs in its strings as they are read. -/
def foldRuns : FoldReader → List Char → List Char
  | .inside run, [] => run
  | _, [] => []
  | .outside, c :: rest => c :: foldRuns (if c = '"' then .inside [] else .outside) rest
  | .escaped, c :: rest => c :: foldRuns (.inside []) rest
  | .inside run, c :: rest =>
    -- A run of blanks is kept until it is known what stands behind it.
    if c = ' ' || isWideBreak c then foldRuns (.inside (run ++ [c])) rest
    else
      let reader := if c = '"' then .outside else if c = '\\' then .escaped else .inside []
      settle run ++ c :: foldRuns reader rest

/-- Whether a text is well formed, as far as the rules of YAML go beyond those of JSON. -/
def isWellFormed (text : List Char) : Bool :=
  text.all isPrintable && !hasSurrogate text && !hasMark text && tabsInPlace text &&
    keysInReach text

/-- A text without the byte order mark that may open it. -/
def withoutOrderMark : List Char → List Char
  | [] => []
  | c :: rest => if c.toNat = 0xFEFF then rest else c :: rest

/-- The JSON text with the meaning that a file with a JSON document has, if the file is well formed.
-/
def jsonText? (text : List Char) : Option (List Char) :=
  let document := withoutOrderMark text
  if isWellFormed document then some (foldRuns .outside document) else none

end Warrant.Yaml
