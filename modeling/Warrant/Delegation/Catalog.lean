import Warrant.Identity.PolicyId
import Warrant.Policy.Predicate
import Warrant.Rule.Rejection

/-! What can be delegated on a device, and the attribute that each choice contributes. -/

namespace Warrant

namespace Catalog

/-- A person who may receive access. -/
structure User where
  name : String
  publicId : String
deriving DecidableEq

/-- Something that the device can do. -/
structure Action where
  name : String
  code : String
deriving DecidableEq

/-- Something that the device can be obliged to do. -/
structure Obligation where
  name : String
  code : String
deriving DecidableEq

/-- The subject of the request is a user, whose public identity a preview masks. -/
def User.predicate (user : User) (masked : Bool) : Predicate :=
  let id := if masked then PolicyId.maskText else user.publicId
  .compareWithRequest .eq "public_id" id "subject"

/-- The action of the request is this one. -/
def Action.predicate (action : Action) : Predicate :=
  .compareWithRequest .eq "action" action.code "action"

/-- The fact that names an obligation. -/
def Obligation.fact (obligation : Obligation) : Fact :=
  ⟨"obligation", obligation.code⟩

end Catalog

/-- Everything that can be delegated on one device. -/
structure Catalog where
  device : String
  users : List Catalog.User
  actions : List Catalog.Action
  obligations : List Catalog.Obligation
  costTiers : List String
deriving DecidableEq

namespace Catalog

/-- The user with a name or a public identity. -/
def user (catalog : Catalog) (key : String) : Except Rejection User :=
  match catalog.users.find? fun user => user.name = key ∨ user.publicId = key with
  | some user => .ok user
  | none => .error (.unknownUser key)

/-- The action with a name or a code. -/
def action (catalog : Catalog) (key : String) : Except Rejection Action :=
  match catalog.actions.find? fun action => action.name = key ∨ action.code = key with
  | some action => .ok action
  | none => .error (.unknownAction key)

/-- The obligation with a name or a code. -/
def obligation (catalog : Catalog) (key : String) : Except Rejection Obligation :=
  match catalog.obligations.find? fun entry => entry.name = key ∨ entry.code = key with
  | some obligation => .ok obligation
  | none => .error (.unknownObligation key)

/-- The cost at a place in the list of tiers. -/
def cost (catalog : Catalog) (index : Nat) : Except Rejection String :=
  match catalog.costTiers[index]? with
  | some cost => .ok cost
  | none => .error (.noSuchTier index catalog.costTiers.length)

/-- A label with a number after it. -/
def numbered (label : String) (number : Nat) : String :=
  label ++ "#" ++ String.ofList (Text.natural number)

/-- The public identities of the users in the catalog of the reference device. -/
def referenceIds : List String := [
  "3c9d985c5d630e6e02f676997c5e9f03b45c6b7529b2491e8de03c18af3c9d87" ++
    "f0a65ecb5dd8f390dee13835354b222df414104684ce9f1079a059f052ca6e51",
  "d51d6d76a6002d34af849e52c22719bd2becfee5b0685acd67b0d16654284cf6" ++
    "d200189d22cdab0aafcfd46b055a2e4f5bde31cae849207fd820e03c32ac21f8",
  "df2b3fe3be9f6bd3deca19d275eb76b252389c4c4af2ce33745376357c955f1e" ++
    "0c9d1eb776beacd2bd917fc216787e57156edfb8077c816754a10a46b91a81b2",
  "90fb6a83806bc167d68d7eaf21e33fa1e8bb6a32ee536091728461e2655be376" ++
    "9cdc4062942ae87d7ed131e880c63914bf7774f282e3220796ffb30c7f3a6bd8"]

/-- The catalog of the reference device, which stands in for whatever a catalog leaves out. -/
def reference : Catalog where
  device := "123"
  users := referenceIds.zipIdx.map fun (id, index) => ⟨numbered "User " (index + 1), id⟩
  actions := [1, 2, 3, 4].map fun n => ⟨numbered "Action " n, numbered "action" n⟩
  obligations := [1, 2, 3].map fun n => ⟨numbered "Obligation " n, numbered "obligation" n⟩
  costTiers := ["0.0", "0.05", "0.1", "0.15"]

end Catalog

end Warrant
