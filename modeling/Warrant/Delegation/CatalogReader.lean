import Warrant.Delegation.Catalog
import Warrant.Json.Scalar
import Warrant.Json.Yaml

/-! Catalogs as JSON, in messages and in files. -/

namespace Warrant.Catalog

/-- An object with two texts. -/
def pairToJson (first second : String × String) : Json :=
  .obj [(first.1, .str first.2), (second.1, .str second.2)]

/-- The members of a catalog in their declared order. -/
def toJson (catalog : Catalog) : Json :=
  .obj [("device_id", .str catalog.device),
    ("users", .arr (catalog.users.map fun user =>
      pairToJson ("name", user.name) ("public_id", user.publicId))),
    ("actions", .arr (catalog.actions.map fun action =>
      pairToJson ("name", action.name) ("code", action.code))),
    ("obligations", .arr (catalog.obligations.map fun obligation =>
      pairToJson ("name", obligation.name) ("code", obligation.code))),
    ("cost_tiers", .arr (catalog.costTiers.map .str))]

/-- How the records and the texts of a catalog are written. -/
structure Style where
  fields? : List String → Document → Option (List (Option Document))
  text? : Document → Option String

/-- The style of messages, where every text has quotes. -/
def Style.message : Style := ⟨Document.fields? .ignored, Document.text?⟩

/-- The style of files, where words and numbers may go without quotes. -/
def Style.file : Style := ⟨Document.namedFields? .ignored, Document.bareText?⟩

/-- Reads a record of two texts. -/
def pair? (style : Style) (first second : String) (document : Document) :
    Option (String × String) := do
  match ← style.fields? [first, second] document with
  | [some first, some second] => return (← style.text? first, ← style.text? second)
  | _ => none

/-- Reads a list of records of two texts. -/
def pairs? (style : Style) (first second : String) (document : Document) :
    Option (List (String × String)) :=
  document.listOf? (pair? style first second)

/-- Reads a catalog in a style. What it leaves out is taken from the reference device. -/
def read? (style : Style) (document : Document) : Option Catalog := do
  -- The members are read in their declared order, which decides on the first error.
  match ← style.fields? ["device_id", "users", "actions", "obligations", "cost_tiers"] document with
  | [device, users, actions, obligations, costTiers] =>
    let device ← Document.withDefault? reference.device style.text? device
    let users ← Document.withDefault? reference.users
      (fun d => (pairs? style "name" "public_id" d).map (List.map fun p => ⟨p.1, p.2⟩)) users
    let actions ← Document.withDefault? reference.actions
      (fun d => (pairs? style "name" "code" d).map (List.map fun p => ⟨p.1, p.2⟩)) actions
    let obligations ← Document.withDefault? reference.obligations
      (fun d => (pairs? style "name" "code" d).map (List.map fun p => ⟨p.1, p.2⟩)) obligations
    let costTiers ←
      Document.withDefault? reference.costTiers (Document.listOf? style.text?) costTiers
    return ⟨device, users, actions, obligations, costTiers⟩
  | _ => none

/-- Reads a catalog from a message. -/
def ofDocument? : Document → Option Catalog :=
  read? .message

/-- Reads a catalog from the text of a file. A file without content leaves everything out. -/
def ofFile? (text : String) : Option Catalog := do
  let json ← Yaml.jsonText? text.toList
  if Document.skipSpaces json = [] then some reference
  else (Document.read? json).bind (read? .file)

end Warrant.Catalog
