import AccessorLint.Files.Path
import AccessorLint.Text.Quoted
import AccessorLint.Text.Utf8
set_option autoImplicit false

/-!
The files that a run can see.

A disk binds absolute paths to files and directories.  There are no symbolic links, so a path and its absolute path
without `..` lead to the same place.  A file has a stamp that tells when it was last written.  A file is written with the
stamp the disk shows at the time, and the disk then shows a later one.
-/

namespace AccessorLint

open Text (Bytes)

/-- What stands at a path. -/
inductive Node where
  | file (bytes : Bytes) (stamp : Int)
  | directory
deriving DecidableEq, Repr

/-- The files, the names of the working directory, and the stamp of files written now. -/
structure Disk where
  nodes : List (List Text × Node)
  current : List Text
  now : Int
deriving DecidableEq, Repr

/-- Why a path cannot be opened. -/
inductive FileError where
  | notFound
  | notADirectory
  | isADirectory
deriving DecidableEq, Repr

def FileError.message (path : Text) : FileError → Text
  | notFound => "[Errno 2] No such file or directory: " ++ path.quoted
  | notADirectory => "[Errno 20] Not a directory: " ++ path.quoted
  | isADirectory => "[Errno 21] Is a directory: " ++ path.quoted

namespace Disk

/-- What stands at a place.  The root is always a directory. -/
def node? (disk : Disk) (parts : List Text) : Option Node :=
  if parts.isEmpty then some .directory else disk.nodes.lookup parts

/-- Whether a directory stands at a place. -/
def isDirectoryAt (disk : Disk) (parts : List Text) : Bool :=
  disk.node? parts == some .directory

/-- Follows names from a place, `..` upwards.  Each name but the last has to lead to a directory. -/
def follow (disk : Disk) : List Text → List Text → Except FileError (List Text)
  | place, [] => .ok place
  | place, name :: rest =>
      match disk.node? place with
      | none => .error .notFound
      | some (.file _ _) => .error .notADirectory
      | some .directory => disk.follow (if name = ".." then place.dropLast else place ++ [name]) rest

/-- The place that a path leads to, whether or not something stands there. -/
def place (disk : Disk) (path : Path) : Except FileError (List Text) :=
  disk.follow [] (if path.isAbsolute then path.parts else disk.current ++ path.parts)

def find? (disk : Disk) (path : Path) : Option Node :=
  match disk.place path with
  | .ok parts => disk.node? parts
  | .error _ => none

/-- Whether a path leads to a file.  No path with a NUL does. -/
def isFile (disk : Disk) (path : Path) : Bool :=
  match disk.find? path with
  | some (.file _ _) => true
  | _ => false

def isDirectory (disk : Disk) (path : Path) : Bool :=
  disk.find? path == some .directory

def names (disk : Disk) (parts : List Text) : List Text :=
  disk.nodes.filterMap fun (entry, _) =>
    if entry.dropLast = parts then entry.getLast? else none

/-- The path of the working directory. -/
def currentPath (disk : Disk) : Path :=
  ⟨.top, disk.current⟩

/-- The absolute path of a path, without `..`. -/
def absolute (disk : Disk) (path : Path) : Path :=
  (disk.currentPath.join path).normalized

/-- The path of the place that a path leads to.  It starts from the root directory, also where the path starts with two
slashes. -/
def resolved (disk : Disk) (path : Path) : Path :=
  ⟨.top, (disk.absolute path).parts⟩

def setNode (place : List Text) (node : Node) : List (List Text × Node) → List (List Text × Node)
  | [] => [(place, node)]
  | (other, old) :: rest =>
      if other = place then (place, node) :: rest else (other, old) :: setNode place node rest

/-- The disk with a directory at a place and above it, from the top down. -/
def makeDirectories (disk : Disk) (parts : List Text) : Disk :=
  (List.range parts.length).foldl (fun disk count =>
    let above := parts.take (count + 1)
    if (disk.node? above).isSome then disk else { disk with nodes := setNode above .directory disk.nodes }) disk

/-- The disk with a file at a place, and directories above it. -/
def writeAt (disk : Disk) (parts : List Text) (bytes : Bytes) : Disk :=
  let prepared := disk.makeDirectories parts.dropLast
  { prepared with nodes := setNode parts (.file bytes disk.now) prepared.nodes, now := disk.now + 1 }

/-- The disk after a file has been opened by its path and written.  The directory of the file has to exist. -/
def write (disk : Disk) (path : Path) (bytes : Bytes) : Except FileError Disk := do
  let parts ← disk.place path
  if disk.isDirectoryAt parts then .error .isADirectory
  else if !disk.isDirectoryAt parts.dropLast then .error .notFound
  else .ok { disk with nodes := setNode parts (.file bytes disk.now) disk.nodes, now := disk.now + 1 }

/-- The disk without what stands at a place. -/
def remove (disk : Disk) (parts : List Text) : Disk :=
  { disk with nodes := disk.nodes.filter fun (other, _) => !parts.isPrefixOf other }

/-- The files that another disk holds with other bytes or does not hold, with their bytes. -/
def changesSince (disk old : Disk) : List (List Text × Bytes) :=
  disk.nodes.filterMap fun (place, node) =>
    match node, old.nodes.lookup place with
    | .file bytes _, some (.file before _) => if bytes = before then none else some (place, bytes)
    | .file bytes _, _ => some (place, bytes)
    | .directory, _ => none

end Disk

end AccessorLint
