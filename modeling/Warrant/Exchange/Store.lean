import Warrant.Exchange.Disk
import Warrant.Json.Printer
import Warrant.Policy.Reader
import Warrant.Text.Blank

/-! Stores that keep a list of policies, in memory and in a file. -/

namespace Warrant

/-- Why a store has no list of policies to give. -/
inductive StoreError where
  | disk
  | content
deriving DecidableEq

/-- The text of stored policies: an indented JSON array. -/
def storedText (policies : List Policy) : String :=
  (Json.arr (policies.map Policy.toJson)).pretty

/-- The policies in a stored text. A text without content holds none. -/
def readStored (text : String) : Except StoreError (List Policy) :=
  if Text.trim text.toList = [] then .ok []
  else
    -- The policies nest one level less than the list that holds them.
    match (Document.read? text.toList).bind
      (Document.listOf? (Policy.ofDocument? (Json.maxDepth - 1))) with
    | some policies => .ok policies
    | none => .error .content

/-- A store that lasts as long as the program. -/
structure MemoryStore where
  policies : List Policy
deriving DecidableEq

namespace MemoryStore

/-- The store without policies. -/
def empty : MemoryStore := ⟨[]⟩

/-- The list that was stored last. -/
def load (store : MemoryStore) : List Policy :=
  store.policies

/-- Keeps a list in place of the one before. -/
def store (_ : MemoryStore) (policies : List Policy) : MemoryStore :=
  ⟨policies⟩

end MemoryStore

/-- A store in a file, which need not be there yet. -/
structure FileStore where
  path : Path
deriving DecidableEq

namespace FileStore

/-- The list in the file, and none where no file is. -/
def load (store : FileStore) (disk : Disk) : Except StoreError (List Policy) :=
  if disk.holds store.path then
    match disk.read? store.path with
    | some text => readStored text
    | none => .error .disk
  else .ok []

/-- Writes a list to the file, in folders that are made for it. Tells whether it was written. -/
def store (store : FileStore) (policies : List Policy) (disk : Disk) : Disk × Bool :=
  disk.save store.path (storedText policies)

end FileStore

end Warrant
