import Warrant.Json.Record
import Warrant.Number.Layout

/-! Bare words in files that people write: the values they stand for, and their use as texts. -/

namespace Warrant

/-- The value of a scalar. -/
inductive Scalar where
  | null
  | bool (value : Bool)
  | int (value : Int)
  | float (value : Finite binary64)
  | text (text : String)
deriving DecidableEq

namespace Numeral

/-- Whole numbers that fit in 128 bits, with a sign or without. -/
def isWideInteger (n : Int) : Bool :=
  -(Nat.pow 2 127) ≤ n && n < Nat.pow 2 128

/-- The value of a numeral in a file: an integer of 64 bits, or the nearest float. A wider integer
of up to 128 bits has none, and a numeral beyond all floats is a text. -/
def scalar? (numeral : List Char) : Option Scalar :=
  match (whole? numeral).filter isWideInteger with
  | some n => if isMachineInteger n then some (.int n) else none
  | none =>
    match float? numeral with
    | some value => some (.float value)
    | none => some (.text (String.ofList numeral))

end Numeral

namespace Document

/-- The value of a scalar in a file. -/
def scalar? : Document → Option Scalar
  | .null => some .null
  | .bool value => some (.bool value)
  | .number numeral => Numeral.scalar? numeral
  | .string text => text.map .text
  | _ => none

/-- The text of a scalar in a file, which needs no quotes around a word or a number. -/
def bareText? : Document → Option String
  | .null => some "null"
  | .bool true => some "true"
  | .bool false => some "false"
  | .number numeral => some (String.ofList numeral)
  | .string text => text
  | _ => none

/-- A record in a file, whose fields always stand under their names. -/
def namedFields? (strangers : Strangers) (names : List String) (document : Document) :
    Option (List (Option Document)) :=
  match document with
  | .record _ => document.fields? strangers names
  | _ => none

end Document

end Warrant
