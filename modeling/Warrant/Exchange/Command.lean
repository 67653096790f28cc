import Warrant.Identity.PolicyId
import Warrant.Json.Record

/-! Commands to devices and policy servers. -/

namespace Warrant

/-- A command. -/
inductive Command where
  | resolve (policy : PolicyId) (user : String)
  | getPolicyList (user : String)
  | enablePolicy (policy : PolicyId) (user : String)
  | getAuthUserId (username : String)
  | getAllUsers
  | clearAllUsers
  | setDataSet (entries : List Json)
  | getDataSet
  | getUser (username : String)
  | registerUser (profile : Json)
deriving DecidableEq

namespace Command

/-- The name of a command in messages. -/
def name : Command → String
  | .resolve _ _ => "resolve"
  | .getPolicyList _ => "get_policy_list"
  | .enablePolicy _ _ => "enable_policy"
  | .getAuthUserId _ => "get_auth_user_id"
  | .getAllUsers => "get_all_users"
  | .clearAllUsers => "clear_all_users"
  | .setDataSet _ => "set_data_set"
  | .getDataSet => "get_data_set"
  | .getUser _ => "get_user"
  | .registerUser _ => "register_user"

/-- The policy that a command is about. -/
def policy? : Command → Option PolicyId
  | .resolve policy _ | .enablePolicy policy _ => some policy
  | _ => none

/-- The user that a command acts for. -/
def user? : Command → Option String
  | .resolve _ user | .getPolicyList user | .enablePolicy _ user => some user
  | _ => none

/-- The fields of a command beside its name. -/
def fields : Command → List (String × Json)
  | .resolve policy user | .enablePolicy policy user =>
    [("policy_id", policy.toJson), ("user_id", .str user)]
  | .getPolicyList user => [("user_id", .str user)]
  | .getAuthUserId username | .getUser username => [("username", .str username)]
  | .getAllUsers | .clearAllUsers | .getDataSet => []
  | .setDataSet entries => [("dataset_list", .arr entries)]
  | .registerUser profile => [("user", profile)]

/-- A command is an object with its name and its fields. -/
def toJson (command : Command) : Json :=
  .obj (("cmd", .str command.name) :: command.fields)

/-- The only field of a command, which has to be there. -/
def field? (name : String) (rest : Document) : Option Document := do
  match ← rest.fields? .ignored [name] with
  | [field] => field
  | _ => none

/-- The policy and the user of a command. -/
def policyAndUser? (rest : Document) : Option (PolicyId × String) := do
  match ← rest.fields? .ignored ["policy_id", "user_id"] with
  | [some policy, some user] => return (← PolicyId.ofDocument? policy, ← user.text?)
  | _ => none

/-- A command without fields, from an object with any members or from an empty list. -/
def alone? (command : Command) (rest : Document) : Option Command :=
  (rest.fields? .ignored []).map fun _ => command

/-- Reads the fields of the command with a name. -/
def ofFields? (name : String) (rest : Document) : Option Command := do
  match name with
  | "resolve" =>
    let (policy, user) ← policyAndUser? rest
    return .resolve policy user
  | "get_policy_list" => return .getPolicyList (← (← field? "user_id" rest).text?)
  | "enable_policy" =>
    let (policy, user) ← policyAndUser? rest
    return .enablePolicy policy user
  | "get_auth_user_id" => return .getAuthUserId (← (← field? "username" rest).text?)
  | "get_all_users" => alone? .getAllUsers rest
  | "clear_all_users" => alone? .clearAllUsers rest
  | "set_data_set" =>
    -- The message as a whole is held to this depth, so that it refuses no payload in it.
    let entries ← field? "dataset_list" rest
    return .setDataSet (← entries.listOf? (Document.value? Json.maxDepth))
  | "get_data_set" => alone? .getDataSet rest
  | "get_user" => return .getUser (← (← field? "username" rest).text?)
  | "register_user" => return .registerUser (← (← field? "user" rest).value? Json.maxDepth)
  | _ => none

/-- Reads a command. The whole message has to have a value, even where the command has no use for
it. -/
def ofDocument? (document : Document) : Option Command := do
  let _ ← document.value? Json.maxDepth
  let (name, rest) ← document.untag? "cmd"
  ofFields? (← name.text?) rest

/-- Reads the text of a message. -/
def parse? (message : String) : Option Command :=
  (Document.read? message.toList).bind ofDocument?

/-- The name that a message gives for its command, whether it is known or not. -/
def nameOf? (message : String) : Option String := do
  (← (← Json.parse? message).member? "cmd").text?

end Command

end Warrant
