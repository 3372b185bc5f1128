import AccessorLint.Files.Cache
import AccessorLint.Lint.Correction
set_option autoImplicit false

/-!
Checking and correcting files.

Files are read through a cache.  The work on a file goes in steps: a look at what stands at its path, a lookup of its
content, the check or the correction with its writing, and the removal of the entry that no longer holds.  Work on
several files may be interleaved between these steps in any way.  A file that cannot be processed does not stop the
others, and the order of the results is the order of the files.
-/

namespace AccessorLint

/-- Rules, and how to run them on many files. -/
structure Engine where
  rules : List Rule
  /-- Whether work on several files goes on at the same time. -/
  parallel : Bool

/-- The files, and the cache through which they are read. -/
structure Workspace where
  disk : Disk
  cache : Cache
deriving DecidableEq, Repr

/-- Why a file cannot be processed. -/
inductive TaskError where
  /-- The path means nothing. -/
  | badPath (error : PathError)
  /-- The file cannot be written. -/
  | unwritable (path : Text) (error : FileError)
deriving DecidableEq, Repr

def TaskError.message : TaskError → Text
  | badPath error => error.message
  | unwritable path error => error.message path

/-- The violations of files, and how many were corrected. -/
structure Findings where
  violations : List Violation
  corrected : Nat
deriving DecidableEq, Repr

/-- What processing leaves: a result, the files, and what there is to tell. -/
structure Processed (α : Type) where
  result : α
  workspace : Workspace
  notices : List Notice

/-- What processing a file leaves. -/
abbrev Visit := Processed (Except TaskError Findings)

/-- What is done with files. -/
inductive Job where
  /-- They are checked, each on the lines that count. -/
  | check (selected : Text → List Int)
  | correct

/-- How far the work on a file has come.  Work on other files may go on between any two stages. -/
inductive Stage where
  | waiting
  /-- What stands at the path has been looked at. -/
  | seen (node : Option Node)
  /-- The content has been read. -/
  | holding (content : Text)
  /-- The file has been written, and the cache has still to give up its entry. -/
  | written (found : Findings)
  | finished (result : Except TaskError Findings)

/-- What the work on a file has come to.  Before its end nothing has been found. -/
def Stage.outcome : Stage → Except TaskError Findings
  | finished result => result
  | _ => .ok ⟨[], 0⟩

/-- What the work on a file adds to the findings.  A file that cannot be processed adds nothing. -/
def Stage.found (stage : Stage) : Findings :=
  stage.outcome.toOption.getD ⟨[], 0⟩

namespace Engine

/-- An engine without rules. -/
def empty (parallel : Bool) : Engine :=
  ⟨[], parallel⟩

def add (engine : Engine) (rule : Rule) : Engine :=
  { engine with rules := engine.rules ++ [rule] }

/-- The engine with a rule switched on or off. -/
def enable (engine : Engine) (identifier : Text) (enabled : Bool) : Engine :=
  { engine with
    rules := engine.rules.map fun rule =>
      if rule.identifier = identifier then { rule with enabled := enabled } else rule }

/-- The engine with the rules that come with the linter, as far as settings enable them. -/
def loadBuiltin (engine : Engine) (projectRoot : Path) (settings : RuleSettings) :
    Except Naming.RuleError (Engine × List Notice) := do
  let loaded ←
    if settings.enabled then do
      let rule ← Naming.NamingRule.ofSettings settings (some projectRoot)
      pure (engine.add (.naming rule))
    else pure engine
  let count := loaded.rules.length - engine.rules.length
  pure (loaded, [.info ("Loaded " ++ Text.ofNat count ++ " builtin rules")])

/-! ### One file -/

/-- What is done with the content of a file.  A corrected file is written only if its content has changed. -/
def proceed (engine : Engine) (path : Text) (workspace : Workspace) (content : Text) : Job → Processed Stage
  | .check selected =>
      let checked := check engine.rules (.ofContent path content) (selected path)
      ⟨.finished (.ok ⟨checked.violations, 0⟩), workspace, checked.notices⟩
  | .correct =>
      let corrected := correct engine.rules path content
      let found : Findings := ⟨corrected.remaining, corrected.count⟩
      if corrected.content = content then ⟨.finished (.ok found), workspace, corrected.notices⟩
      else
        match workspace.disk.write (.ofText path) corrected.content.encode with
        | .error error => ⟨.finished (.error (.unwritable path error)), workspace, corrected.notices⟩
        | .ok disk => ⟨.written found, { workspace with disk := disk }, corrected.notices⟩

/-- The next step of the work on a file.  A file that cannot be read has no violations. -/
def advance (engine : Engine) (job : Job) (path : Text) (workspace : Workspace) : Stage → Processed Stage
  | .waiting =>
      if path.contains (.glyph '\x00') then ⟨.finished (.error (.badPath .nulByte)), workspace, []⟩
      else ⟨.seen (workspace.disk.find? (workspace.disk.absolute (.ofText path))), workspace, []⟩
  | .seen node =>
      match workspace.cache.fetchSeen workspace.disk (workspace.disk.absolute (.ofText path)) node with
      | (none, cache) => ⟨.finished (.ok ⟨[], 0⟩), { workspace with cache := cache }, []⟩
      | (some content, cache) => ⟨.holding content, { workspace with cache := cache }, []⟩
  | .holding content => engine.proceed path workspace content job
  | .written found =>
      let notice := Notice.info ("Corrected " ++ Text.ofNat found.corrected ++ " violations in " ++ path)
      ⟨.finished (.ok found), { workspace with cache := workspace.cache.invalidate workspace.disk path }, [notice]⟩
  | .finished result => ⟨.finished result, workspace, []⟩

/-- The work on a file after so many steps more. -/
def advanceBy (engine : Engine) (job : Job) (path : Text) : Nat → Processed Stage → Processed Stage
  | 0, done => done
  | steps + 1, done =>
      let next := engine.advance job path done.workspace done.result
      engine.advanceBy job path steps { next with notices := done.notices ++ next.notices }

/-- The number of steps after which the work on a file is finished at the latest. -/
def maxSteps : Nat := 4

/-- Processes a file without a break. -/
def process (engine : Engine) (job : Job) (workspace : Workspace) (path : Text) : Visit :=
  let done := engine.advanceBy job path maxSteps ⟨.waiting, workspace, []⟩
  { done with result := done.result.outcome }

def checkFile (engine : Engine) (workspace : Workspace) (path : Text) (selected : List Int) : Visit :=
  engine.process (.check fun _ => selected) workspace path

def correctFile (engine : Engine) (workspace : Workspace) (path : Text) : Visit :=
  engine.process .correct workspace path

/-! ### Many files -/

/-- The work on many files: how far each of them has come. -/
abbrev Together := Processed (List (Text × Stage))

/-- What is told of a step that has made the work on a file fail. -/
def failureNotices (path : Text) : Stage → Stage → List Notice
  | .finished _, _ => []
  | _, .finished (.error error) => [.error ("Failed to process " ++ path ++ ": " ++ error.message)]
  | _, _ => []

/-- The work after the file at an index has had a turn. -/
def turn (engine : Engine) (job : Job) (done : Together) (index : Nat) : Together :=
  match done.result[index]? with
  | none => done
  | some (path, stage) =>
      let next := engine.advance job path done.workspace stage
      ⟨done.result.set index (path, next.result), next.workspace,
        done.notices ++ next.notices ++ failureNotices path stage next.result⟩

/-- The turns by which so many files are processed one after the other. -/
def oneByOne (count : Nat) : List Nat :=
  (List.range count).flatMap fun index => List.replicate maxSteps index

/-- Works on files.  Several files take turns as a schedule tells, if work goes on at the same time; what is left then
is done file by file. -/
def runAll (engine : Engine) (job : Job) (schedule : List Nat) (workspace : Workspace) (files : List Text) : Together :=
  let turns := if engine.parallel && 1 < files.length then schedule else []
  (turns ++ oneByOne files.length).foldl (engine.turn job) ⟨files.map fun path => (path, .waiting), workspace, []⟩

/-- What the work on files has found, in the order of the files. -/
def foundIn (stages : List (Text × Stage)) : Findings :=
  ⟨stages.flatMap fun file => file.2.found.violations,
    stages.foldr (fun file count => file.2.found.corrected + count) 0⟩

/-- The notice at the start of work on many files. -/
def startNotice (engine : Engine) (verb : Text) (count : Nat) : Notice :=
  .info (verb ++ " " ++ Text.ofNat count ++ " files with " ++ Text.ofNat engine.rules.length ++
    " rules (parallel=" ++ (Scalar.bool engine.parallel).shown ++ ")")

/-- Checks files.  For each file the lines that count may be given. -/
def checkFiles (engine : Engine) (workspace : Workspace) (files : List Text) (selected : Text → List Int)
    (schedule : List Nat) : Processed Findings :=
  let done := engine.runAll (.check selected) schedule workspace files
  let found := foundIn done.result
  let last := Notice.info ("Total violations found: " ++ Text.ofNat found.violations.length)
  ⟨found, done.workspace, engine.startNotice "Checking" files.length :: done.notices ++ [last]⟩

def correctFiles (engine : Engine) (workspace : Workspace) (files : List Text) (schedule : List Nat) :
    Processed Findings :=
  let done := engine.runAll .correct schedule workspace files
  let found := foundIn done.result
  let last := Notice.info ("Corrected " ++ Text.ofNat found.corrected ++ " violations, " ++
    Text.ofNat found.violations.length ++ " remaining")
  ⟨found, done.workspace, engine.startNotice "Autocorrecting" files.length :: done.notices ++ [last]⟩

end Engine

end AccessorLint
