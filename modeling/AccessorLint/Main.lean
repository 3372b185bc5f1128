import AccessorLint.Command.Run
import AccessorLint.Yaml.Document
set_option autoImplicit false

/-!
The command line.

The files that a run can see are read before it, and what it has changed is written after it.
-/

namespace AccessorLint.CommandLine

/-! ### Texts and bytes -/

/-- A text as a string; a stray byte becomes a question mark. -/
def stringOf (text : Text) : String :=
  String.ofList (text.map fun symbol => symbol.char?.getD '?')

def bytesOf (text : Text) : ByteArray :=
  ⟨text.encode.toArray⟩

def pathOf (place : List Text) : String :=
  stringOf (Path.mk .top place).text

/-! ### Reading files -/

/-- A file with its stamp, if it can be read. -/
def readFile? (path : String) : IO (Option Node) := do
  try
    let entry : IO.FS.DirEntry := ⟨path, ""⟩
    let modified := (← entry.root.metadata).modified
    let bytes ← IO.FS.readBinFile path
    return some (.file bytes.toList (modified.sec * 1000000000 + modified.nsec.toNat))
  catch _ => return none

/-- What a directory holds, with the directories in it, as far as it can be read.  Links to directories are not
followed. -/
partial def readTree (path : String) (place : List Text) : IO (List (List Text × Node)) := do
  let directory : IO.FS.DirEntry := ⟨path, ""⟩
  let entries ← try directory.root.readDir catch _ => pure #[]
  let mut nodes : List (List Text × Node) := []
  for entry in entries do
    let inside := place ++ [Text.ofString entry.fileName]
    let isDirectory ← entry.path.isDir
    let isLink ← try pure ((← entry.path.symlinkMetadata).type == .symlink) catch _ => pure false
    if isDirectory then
      nodes := nodes ++ [(inside, .directory)]
      if !isLink then nodes := nodes ++ (← readTree entry.path.toString inside)
    else if let some file ← readFile? entry.path.toString then
      nodes := nodes ++ [(inside, file)]
  return nodes

/-- The disk with the file of a path, if there is one. -/
def addFile (disk : Disk) (path : Path) : IO Disk := do
  let place := (disk.absolute path).parts
  match (← readFile? (pathOf place)) with
  | some file =>
      let prepared := disk.makeDirectories place.dropLast
      return { prepared with nodes := prepared.nodes ++ [(place, file)] }
  | none => return disk

/-- The files that a run with some arguments can see: the project, and the files that are named. -/
def readDisk (current : List Text) (arguments : Arguments) : IO Disk := do
  let empty := (Disk.mk [] current 0).makeDirectories current
  let root := ((arguments.projectRoot.map fun path => empty.resolved (.ofText path))).getD empty.currentPath
  let tree ← readTree (stringOf root.text) root.parts
  let isThere ← (IO.FS.DirEntry.mk (stringOf root.text) "").root.isDir
  let prepared := if isThere then empty.makeDirectories root.parts else empty
  let project := { prepared with nodes := prepared.nodes ++ tree }
  let named := (arguments.config.toList ++ arguments.files.getD []).map fun path => root.join (.ofText path)
  named.foldlM (fun disk path => if (disk.find? path).isSome then pure disk else addFile disk path) project

/-! ### Log files -/

def logDirectory : IO String := do
  match (← IO.getEnv "RBLINT_LOG_DIR") with
  | some path => if !path.isEmpty then return path
  | none => pure ()
  return ((← IO.getEnv "HOME").getD "") ++ "/" ++ stringOf Journal.directory

/-- The moment at which the run starts: that of a file written now. -/
def currentMoment (directory : String) : IO Moment := do
  let probe := directory ++ "/.clock"
  IO.FS.writeFile probe ""
  let entry : IO.FS.DirEntry := ⟨probe, ""⟩
  let modified := (← entry.root.metadata).modified
  IO.FS.removeFile probe
  return Moment.ofClock modified.sec.toNat

def randomName : IO Text := do
  let bytes ← IO.getRandomBytes 16
  return Text.Digest.hex bytes.toList

/-! ### Running -/

/-- Prints what a run has written. -/
def print (result : RunResult) : IO UInt32 := do
  (← IO.getStderr).write (bytesOf result.stderr)
  (← IO.getStdout).write (bytesOf result.stdout)
  return UInt32.ofNat result.exitCode

/-- A run for which neither files nor log files matter. -/
def answer (given : List Text) : IO UInt32 :=
  print <| runProgram {
    disk := ⟨[], [], 0⟩
    journal := .empty none false (.ofClock 0)
    logPath := []
    runId := []
    createdAt := []
    elapsed := []
    interrupted := false
    readSettings := Yaml.reader
    schedule := [] } given

/-- A run on files.  What it has changed is written. -/
def run (given : List Text) (arguments : Arguments) : IO UInt32 := do
  let current := Path.partsOf (Text.ofString (← IO.currentDir).toString)
  let disk ← readDisk current arguments
  let logs ← logDirectory
  IO.FS.createDirAll logs
  let now ← currentMoment logs
  let listed ← (IO.FS.DirEntry.mk logs "").root.readDir
  let names := listed.toList.map fun entry => Text.ofString entry.fileName
  let verbose := ((← IO.getEnv "RBLINT_VERBOSE").getD "") != ""
  let logPath := logs ++ "/" ++ stringOf (LogName.ofSession "rblint" now)
  let result := runProgram {
    disk := disk
    journal := .empty (some names) verbose now
    logPath := logPath
    runId := ← randomName
    createdAt := now.stamp
    elapsed := "0.00"
    interrupted := false
    readSettings := Yaml.reader
    schedule := [] } given
  for (place, bytes) in result.disk.changesSince disk do
    IO.FS.writeBinFile (pathOf place) ⟨bytes.toArray⟩
  for name in names do
    if !(result.journal.files.getD []).contains name then IO.FS.removeFile (logs ++ "/" ++ stringOf name)
  IO.FS.writeBinFile logPath (bytesOf result.log)
  print result

end AccessorLint.CommandLine

open AccessorLint in
def main (arguments : List String) : IO UInt32 := do
  let given := arguments.map Text.ofString
  match Arguments.read given with
  | .ok (.run read) => if read.listRules then CommandLine.answer given else CommandLine.run given read
  | _ => CommandLine.answer given
