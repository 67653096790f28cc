import Warrant.CommandLine.Program

/-! The program at work: files, environment variables and streams of the system. -/

namespace Warrant.Main

/-- The text of a file of the system. -/
def readText (path : String) : IO (Option String) := do
  try
    return some (← IO.FS.readFile path)
  catch _ =>
    return none

/-- Writes a file of the system, in folders that are made for it. -/
def saveText (path text : String) : IO Bool := do
  let folder := (Path.mk path).enclosing.text
  try
    if folder ≠ "" then IO.FS.createDirAll folder
    IO.FS.writeFile path text
    return true
  catch _ =>
    return false

/-- The system as a host. -/
def system : Host IO :=
  ⟨readText, saveText, fun name => IO.getEnv name⟩

/-- The words of a complaint. -/
def words : Complaint → String
  | .own words => words
  | .foreign => "unreadable or malformed input"

/-- What is said of an ending on the stream for errors, if anything. -/
def complaint? : Ending → Option String
  | .halted .usage => some "invalid arguments, see access --help"
  | .ran ⟨_, .failed cause⟩ => some (": ".intercalate (cause.chain.map words))
  | .ran ⟨_, .mismatched⟩ => some "policy id verification failed"
  | _ => none

/-- Shows an ending: its lines on the output, and a complaint on the stream for errors. -/
def report (ending : Ending) : IO UInt32 := do
  for line in ending.lines do
    IO.println line
  if let some complaint := complaint? ending then IO.eprintln complaint
  return ending.exitCode

end Warrant.Main

/-- Runs the program on its arguments. -/
def main (arguments : List String) : IO UInt32 := do
  Warrant.Main.report (← Warrant.Program.start Warrant.Main.system arguments)
