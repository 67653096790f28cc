import Warrant.CommandLine.Program

/-! A host that is a disk beside the settings of an environment. -/

namespace Warrant

/-- The texts of settings by their names. -/
abbrev Settings := List (String × String)

/-- The host that keeps its files on a disk. -/
def Host.onDisk (settings : Settings) : Host (StateM Disk) where
  read path := return (← get).read? ⟨path⟩
  save path text := do
    let (disk, saved) := (← get).save ⟨path⟩ text
    set disk
    return saved
  setting name := return settings.lookup name

/-- How the program ends on a disk, and the disk that it leaves. -/
def Program.startOn (disk : Disk) (settings : Settings) (arguments : List String) : Ending × Disk :=
  (Program.start (Host.onDisk settings) arguments).run disk

end Warrant
