/-! Disks: folders, and files with text in them, at the ends of the walks that paths lead on. -/

namespace Warrant

/-- Where something stands: the names of the folders around it, the outermost first, and its own. -/
abbrev Place := List String

/-- A step of a path: on to what has a name, or back to the folder around. -/
inductive Step where
  | down (name : String)
  | up
deriving DecidableEq

/-- A path as it is written. -/
structure Path where
  text : String
deriving DecidableEq

namespace Path

/-- What stands between the slashes of a path. -/
def pieces (path : Path) : List (List Char) :=
  path.text.toList.splitOn '/'

/-- A piece that leads nowhere: an empty one, or a single dot. -/
def isIdle (piece : List Char) : Bool :=
  piece = [] || piece = ['.']

/-- The step of a piece that leads somewhere. -/
def step (piece : List Char) : Step :=
  if piece = ['.', '.'] then .up else .down (String.ofList piece)

/-- The steps of a path. -/
def steps (path : Path) : List Step :=
  (path.pieces.filter fun piece => !isIdle piece).map step

/-- Whether only a folder may stand at the end of a path, which holds after an idle piece. -/
def endsIdle (path : Path) : Bool :=
  isIdle (path.pieces.getLastD [])

/-- Whether a path ends in a dot, slashes behind it apart. -/
def endsInDot (path : Path) : Bool :=
  (path.pieces.reverse.dropWhile (· = [])).head? = some ['.']

/-- Whether a path can be followed at all: it has at most 4095 bytes, none of them zero. -/
def isSound (path : Path) : Bool :=
  path.text.utf8ByteSize ≤ 4095 && !path.text.toList.contains '\x00'

/-- The path without its last piece that leads somewhere, and without the idle pieces around that.
-/
def enclosing (path : Path) : Path :=
  let around := (path.pieces.reverse.dropWhile isIdle).drop 1
  ⟨String.ofList (['/'].intercalate (around.dropWhile isIdle).reverse)⟩

end Path

/-- The texts of files, and the folders beside the one that all walks start from. -/
structure Disk where
  files : List (Place × String)
  folders : List Place
deriving DecidableEq

namespace Disk

/-- The disk with nothing on it. -/
def empty : Disk := ⟨[], []⟩

/-- Whether something may have a name: it has at most 255 bytes. -/
def isName (name : String) : Bool :=
  name.utf8ByteSize ≤ 255

/-- Whether a folder stands at a place. -/
def isFolder (disk : Disk) (place : Place) : Bool :=
  place = [] || disk.folders.contains place

/-- The place that steps lead to, as long as each starts from a folder. The folder of all walks is
the one around itself. -/
def walk? (disk : Disk) : Place → List Step → Option Place
  | place, [] => some place
  | place, step :: rest =>
    if disk.isFolder place then
      -- One step up from the folder of all walks leads to that folder again.
      match step with
      | .down name => disk.walk? (place ++ [name]) rest
      | .up => disk.walk? place.dropLast rest
    else none

/-- The place at the end of a path, whatever stands there. -/
def locate? (disk : Disk) (path : Path) : Option Place :=
  if path.isSound then disk.walk? [] path.steps else none

/-- The text of the file at the end of a path. -/
def read? (disk : Disk) (path : Path) : Option String :=
  if path.endsIdle then none else (disk.locate? path).bind fun place => disk.files.lookup place

/-- Whether a folder stands at the end of a path. -/
def holdsFolder (disk : Disk) (path : Path) : Bool :=
  (disk.locate? path).any fun place => disk.isFolder place

/-- Whether a folder or a file stands at the end of a path. -/
def holds (disk : Disk) (path : Path) : Bool :=
  disk.holdsFolder path || (disk.read? path).isSome

/-- Makes the folders on a walk that are not there yet, until one cannot be made. Tells whether the
walk leads to a folder then. -/
def makeFolders (disk : Disk) : Place → List Step → Disk × Bool
  | _, [] => (disk, true)
  | place, .up :: rest => disk.makeFolders place.dropLast rest
  | place, .down name :: rest =>
    let next := place ++ [name]
    -- A folder that is there is walked through, and one that is missing is made.
    if disk.isFolder next then disk.makeFolders next rest
    else if isName name && (disk.files.lookup next).isNone then
      makeFolders { disk with folders := disk.folders ++ [next] } next rest
    else (disk, false)

/-- Makes the folder at the end of a path, and those on the way to it. What a dot at the end stands
for has to be there, and only the folders around it are made. -/
def makeFolder (disk : Disk) (path : Path) : Disk × Bool :=
  if path.isSound then
    let (made, led) := disk.makeFolders [] (if path.endsInDot then path.enclosing else path).steps
    (made, led && made.holdsFolder path)
  else (disk, false)

/-- Puts a file in the place of any file that stands there. -/
def put (disk : Disk) (place : Place) (text : String) : Disk :=
  { disk with files := (place, text) :: disk.files.filter fun file => file.1 ≠ place }

/-- Writes a file into a folder that is there. -/
def write? (disk : Disk) (path : Path) (text : String) : Option Disk := do
  let place ← disk.locate? path
  if path.endsIdle || disk.isFolder place || !isName (place.getLastD "") then none
  else some (disk.put place text)

/-- Writes a file into a folder that is made for it. Tells whether the file was written; the folders
stay in any case. -/
def save (disk : Disk) (path : Path) (text : String) : Disk × Bool :=
  match disk.makeFolder path.enclosing with
  -- A file that cannot be written leaves the folders that were made for it.
  | (made, true) =>
    match made.write? path text with
    | some written => (written, true)
    | none => (made, false)
  | (made, false) => (made, false)

end Disk

end Warrant
