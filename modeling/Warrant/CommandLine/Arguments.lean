/-! The arguments of the program. -/

namespace Warrant

/-- What the program is asked to do. -/
inductive Invocation where
  | compile (rule : String)
  | assemble (delegation : String) (catalog : Option String) (preview : Bool)
      (store : Option String)
  | verify (policy : String)
  | delegate (delegation : String) (catalog : Option String) (owner keyVariable : String)
deriving DecidableEq

/-- The commands of the program. -/
inductive Verb where
  | compile
  | assemble
  | verify
  | delegate
deriving DecidableEq

/-- What an option takes: nothing, any text, or a path, which must not be empty. -/
inductive Takes where
  | nothing
  | text
  | path
deriving DecidableEq

/-- An option of a command: its name, what it takes, whether it has to be given, and what it is for.
-/
structure Choice where
  name : String
  takes : Takes
  needed : Bool
  purpose : String
deriving DecidableEq

namespace Choice

/-- The option that all commands have. -/
def logJson : Choice := ⟨"log-json", .nothing, false, "Emit logs as JSON lines"⟩

/-- The option with a word for its value. -/
def form (choice : Choice) : String :=
  let value := choice.name.toList.map fun c => if c = '-' then '_' else c.toUpper
  "--" ++ choice.name ++
    (if choice.takes = .nothing then "" else String.ofList (' ' :: '<' :: value ++ ['>']))

end Choice

namespace Verb

/-- All commands. -/
def all : List Verb := [.compile, .assemble, .verify, .delegate]

/-- The name of a command. -/
def name : Verb → String
  | .compile => "compile"
  | .assemble => "assemble"
  | .verify => "verify"
  | .delegate => "delegate"

/-- The command of a name. -/
def ofName? (name : String) : Option Verb :=
  all.find? fun verb => verb.name = name

/-- What a command is for. -/
def purpose : Verb → String
  | .compile => "Compile a rule spec into its attribute tree"
  | .assemble => "Assemble policies from a delegation file"
  | .verify => "Recompute and check policy ids"
  | .delegate => "Produce signed delegate requests"

/-- The delegation that a command starts from. -/
def delegationChoice : Choice :=
  ⟨"delegation", .path, true, "Delegation YAML file"⟩

/-- The catalog that a command may be given. -/
def catalogChoice : Choice :=
  ⟨"catalog", .path, false, "Catalog YAML file. Defaults to the built-in fixture catalog"⟩

/-- The options of a command, in the order in which they are shown. -/
def choices : Verb → List Choice
  | .compile => [.logJson, ⟨"rule", .path, true, "Rule spec YAML file"⟩]
  | .assemble =>
    [delegationChoice, .logJson, catalogChoice,
      ⟨"preview", .nothing, false, "Mask user ids and policy ids"⟩,
      ⟨"store", .path, false, "Write the assembled policies to this JSON file"⟩]
  | .verify => [.logJson, ⟨"policy", .path, true, "Policy JSON file"⟩]
  | .delegate =>
    [delegationChoice, .logJson, catalogChoice,
      ⟨"owner-id", .text, true, "Public id of the delegating owner"⟩,
      ⟨"key-env", .text, false, "Environment variable holding the owner's base64 secret key " ++
        "[default: ACCESS_OWNER_KEY]"⟩]

end Verb

/-- What there is help about. -/
inductive Topic where
  | program
  | command (verb : Verb)
  | help
deriving DecidableEq

namespace Topic

/-- Rows of two columns, the second of which starts two characters behind the widest entry of the
first. -/
def table (rows : List (String × String)) : List String :=
  let width := (rows.map fun row => row.1.length).foldl max 0 + 2
  rows.map fun row => row.1 ++ String.ofList (List.replicate (width - row.1.length) ' ') ++ row.2

/-- The row of an option. -/
def row (choice : Choice) : String × String :=
  ("      " ++ choice.form, choice.purpose)

/-- The row of the option that asks for help. -/
def helpRow : String × String :=
  ("  -h, --help", "Print help")

/-- What the help command is for. -/
def helpPurpose : String :=
  "Print this message or the help of the given subcommand(s)"

/-- The text about a topic. -/
def lines : Topic → List String
  | .program =>
    ["Delegated access policy tool", "", "Usage: access [OPTIONS] <COMMAND>", "", "Commands:"] ++
      table (Verb.all.map (fun verb => ("  " ++ verb.name, verb.purpose)) ++
        [("  help", helpPurpose)]) ++
      ["", "Options:"] ++ table [row .logJson, helpRow, ("  -V, --version", "Print version")]
  | .command verb =>
    -- The usage line shows those options that cannot be left out.
    let needed := (verb.choices.filter Choice.needed).map fun choice => " " ++ choice.form
    [verb.purpose, "", "Usage: access " ++ verb.name ++ " [OPTIONS]" ++ String.join needed, "",
      "Options:"] ++ table (verb.choices.map row ++ [helpRow])
  | .help =>
    [helpPurpose, "", "Usage: access help [COMMAND]...", "", "Arguments:",
      "  [COMMAND]...  Print help for the subcommand(s)"]

/-- The topic of the words behind the help command. -/
def ofWords? : List String → Option Topic
  | [] => some .program
  | ["help"] => some .help
  | [word] => (Verb.ofName? word).map .command
  | _ => none

end Topic

/-- Why arguments lead to no invocation: they ask for a text, or they are at fault. -/
inductive Halt where
  | help (topic : Topic)
  | version
  | usage
deriving DecidableEq

namespace Halt

/-- The lines that are printed in place of those of a command. -/
def lines : Halt → List String
  | .help topic => topic.lines
  | .version => ["access 0.1.0"]
  | .usage => []

/-- The exit code of arguments that lead to no invocation. -/
def exitCode : Halt → UInt32
  | .usage => 2
  | _ => 0

end Halt

namespace Invocation

/-- The values that options were given, where an option that takes nothing has an empty one. -/
abbrev Given := List (String × String)

/-- How far the arguments have been read: the options that were given, the option that waits for its
value, and whether the mark came after which no option is expected. -/
structure Scan where
  given : Given
  waiting : Option Choice
  ended : Bool

/-- Gives an option a value, for the first time. -/
def Scan.give (scan : Scan) (choice : Choice) (value : String) : Except Halt Scan :=
  if (scan.given.lookup choice.name).isSome ∨ choice.takes = .path ∧ value = "" then .error .usage
  else .ok ⟨(choice.name, value) :: scan.given, none, scan.ended⟩

/-- Splits a long option at its first equals sign. -/
def splitValue (argument : List Char) : String × Option String :=
  let name := argument.takeWhile (· ≠ '=')
  (String.ofList name,
    match argument.dropWhile (· ≠ '=') with
    | _ :: value => some (String.ofList value)
    | [] => none)

/-- Reads a long option without its dashes. -/
def Scan.long (verb : Verb) (scan : Scan) (argument : List Char) : Except Halt Scan :=
  let (name, value) := splitValue argument
  match verb.choices.find? fun choice => choice.name = name, value with
  | none, none => .error (if name = "help" then .help (.command verb) else .usage)
  | none, some _ => .error .usage
  | some choice, none =>
    -- A flag is given at once, and any other option waits for the next argument.
    if choice.takes = .nothing then scan.give choice ""
    else .ok { scan with waiting := some choice }
  | some choice, some value =>
    if choice.takes = .nothing then .error .usage else scan.give choice value

/-- Reads one argument of a command. A lone dash is a value like any other word. -/
def Scan.next (verb : Verb) (scan : Scan) (argument : String) : Except Halt Scan :=
  match scan.ended, scan.waiting, argument.toList with
  | true, _, _ => .error .usage
  -- Two dashes end the options, after which nothing is taken.
  | false, none, ['-', '-'] => .ok { scan with ended := true }
  | false, none, '-' :: '-' :: rest => scan.long verb rest
  | false, none, '-' :: 'h' :: _ => .error (.help (.command verb))
  | false, none, _ => .error .usage
  -- Whatever comes next is the value of the option that waits, unless it looks like an option.
  | false, some choice, ['-'] => scan.give choice "-"
  | false, some _, '-' :: _ => .error .usage
  | false, some choice, _ => scan.give choice argument

/-- The values that the arguments of a command give to its options. -/
def read (verb : Verb) (arguments : List String) : Except Halt Given := do
  let scan ← arguments.foldlM (Scan.next verb) ⟨[], none, false⟩
  if scan.waiting = none then return scan.given else throw .usage

/-- The value of an option that has to be given. -/
def required (given : Given) (name : String) : Except Halt String :=
  match given.lookup name with
  | some value => .ok value
  | none => .error .usage

/-- The invocation of a command with values for its options. -/
def ofGiven (given : Given) : Verb → Except Halt Invocation
  | .compile => return .compile (← required given "rule")
  | .assemble => do
    let preview := (given.lookup "preview").isSome
    let store := given.lookup "store"
    -- A preview is never stored, which is settled before anything is read.
    if preview ∧ store.isSome then throw .usage
    return .assemble (← required given "delegation") (given.lookup "catalog") preview store
  | .verify => return .verify (← required given "policy")
  | .delegate =>
    return .delegate (← required given "delegation") (given.lookup "catalog")
      (← required given "owner-id") ((given.lookup "key-env").getD "ACCESS_OWNER_KEY")

/-- The invocation of a command by its name and its arguments. -/
def ofCommand (name : String) (arguments : List String) : Except Halt Invocation := do
  if name = "help" then
    throw (match Topic.ofWords? arguments with
      | some topic => .help topic
      -- Help is asked for as a command of its own, about a topic or about the program.
      | none => .usage)
  match Verb.ofName? name with
  | some verb => ofGiven (← read verb arguments) verb
  | none => throw .usage

/-- The invocation that the arguments of the program ask for. What concerns all commands may stand
before the command, once. -/
def ofArguments : List String → Except Halt Invocation
  | [] => .error .usage
  -- The option for logging stands before the command, and at most once.
  | "--log-json" :: "--log-json" :: _ => .error .usage
  | "--log-json" :: rest => ofArguments rest
  | argument :: rest =>
    match argument.toList with
    | '-' :: 'h' :: _ => .error (.help .program)
    | '-' :: 'V' :: _ => .error .version
    | '-' :: _ =>
      .error (match argument with
        | "--help" => .help .program
        | "--version" => .version
        | _ => .usage)
    | _ => ofCommand argument rest

end Invocation

end Warrant
