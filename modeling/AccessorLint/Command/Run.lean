import AccessorLint.Command.Arguments
import AccessorLint.Command.Session
import AccessorLint.Files.Exclusion
import AccessorLint.Files.Glob
import AccessorLint.Lint.Engine
import AccessorLint.Report.Reporter
import AccessorLint.Settings.Loading
set_option autoImplicit false

/-!
Runs of the linter: from arguments to what is printed, the files that are left and the exit code.

A run loads settings, collects files, checks or corrects them and reports what it found.
-/

namespace AccessorLint

/-- What a run finds where it is started. -/
structure Host where
  disk : Disk
  journal : Journal
  logPath : Text
  runId : Text
  /-- When the run was started. -/
  createdAt : Text
  /-- The seconds that parts of the run take. -/
  elapsed : Text
  /-- Whether the user stops the run at once. -/
  interrupted : Bool
  /-- What reads settings files. -/
  readSettings : Settings.Reader
  /-- The turns that files take while several of them are worked on at the same time. -/
  schedule : List Nat

/-- What a run leaves. -/
structure RunResult where
  exitCode : Nat
  stdout : Text
  stderr : Text
  log : Text
  disk : Disk
  journal : Journal
deriving DecidableEq, Repr

/-- Why a run fails. -/
inductive RunError where
  | interrupted
  | badRoot (error : PathError)
  | loading (error : LoadError)
  | discovery (error : Glob.GlobError)
  | rule (error : Naming.RuleError)
  /-- A violation that is to be reported has no identity. -/
  | encoding (error : Text.EncodingError)
deriving Repr

namespace RunError

def message : RunError → Text
  | interrupted => []
  | badRoot error => error.message
  | loading error => error.message
  | discovery error => error.message
  | rule error => error.message
  | encoding error => error.message

/-- Whether the user's settings are to blame. -/
def blamesSettings : RunError → Bool
  | loading (.build (.settings _)) => true
  | rule (.patterns _) => true
  | _ => false

end RunError

namespace Run

/-- A step of a run: what it gives or why it fails, and the session after it. -/
abbrev Step (α : Type) := Except RunError α × Session

/-! ### Settings -/

/-- The file with the settings: the one that is asked for if it exists, else the one that the project has. -/
def settingsFile (disk : Disk) (root : Path) (asked : Option Text) (session : Session) : Option Path × Session :=
  match asked.filter fun text => !text.isEmpty with
  | none => (Settings.find? disk root, session)
  | some text =>
      let path := root.join (.ofText text)
      if (disk.find? path).isSome then (some path, session)
      else (Settings.find? disk root, session.tell (.warning ("Config file not found: " ++ path.text)))

def loadSettings (read : Settings.Reader) (disk : Disk) (root : Path) (asked : Option Text) (session : Session) :
    Step Settings :=
  let (path, session) := settingsFile disk root asked session
  let name := (path.map Path.text).getD "<defaults>"
  let session := session.tell (.info ("Loading config from: " ++ name))
  let (loaded, notices) := Settings.load read disk path
  ((loaded.map Loaded.settings).mapError .loading, session.tellAll notices)

/-! ### Files -/

/-- The files that are asked for, each once.  Those that do not exist are skipped with a warning. -/
def askedFiles (disk : Disk) (root : Path) (names : List Text) (session : Session) : List Text × Session :=
  let located := names.map fun name => (name, root.join (.ofText name))
  let found := located.filter fun (_, path) => disk.isFile path
  let missing := located.filter fun (_, path) => !disk.isFile path
  let notices := missing.map fun (name, _) => Notice.warning ("File not found, skipped: " ++ name)
  ((found.map fun (_, path) => (disk.resolved path).text).eraseDups, session.tellAll notices)

/-- The files of a project that settings include and do not exclude, in order. -/
def projectFiles (disk : Disk) (root : Path) (settings : Settings) : Except Glob.GlobError (List Text) := do
  let found ← settings.included.mapM (Glob.find disk root)
  let isWanted (path : Path) : Bool :=
    disk.isFile path && !isExcluded ((path.relativeTo? root).getD path).text settings.excluded
  let files := (found.flatten.filter isWanted).map fun path => (disk.resolved path).text
  pure (files.eraseDups.mergeSort Text.le)

def collectFiles (disk : Disk) (root : Path) (settings : Settings) (asked : Option (List Text)) (session : Session) :
    Step (List Text) :=
  match asked.filter fun names => !names.isEmpty with
  | some names =>
      let (files, session) := askedFiles disk root names session
      (.ok files, session)
  | none => ((projectFiles disk root settings).mapError .discovery, session)

/-! ### Linting -/

/-- How files are processed, in words. -/
def modeText (performance : Performance) : Text :=
  if performance.parallel then
    let workers : Text := if performance.maxWorkers = 0 then "auto" else Text.ofInt performance.maxWorkers
    "parallel (" ++ workers ++ " workers)"
  else "sequential"

/-- The rules of a run in words. -/
def rulesText (rules : List Rule) : Text :=
  if rules.isEmpty then "-" else Text.joined ", " (rules.map Rule.identifier)

def lint (schedule : List Nat) (disk : Disk) (root : Path) (settings : Settings) (corrects : Bool) (files : List Text)
    (session : Session) : Step (Findings × Disk) :=
  let performance := settings.performance
  let ruleSettings := Settings.rule settings.rules Naming.NamingRule.identifier
  match (Engine.empty performance.parallel).loadBuiltin root ruleSettings with
  | .error error => (.error (.rule error), session)
  | .ok (engine, notices) =>
      let session := (session.tellAll notices).echo
        ("Running " ++ Text.ofNat engine.rules.length ++ " rule(s), " ++ modeText performance ++ ": " ++
          rulesText engine.rules)
      let workspace : Workspace := ⟨disk, .ofMegabytes performance.cacheMegabytes⟩
      let done :=
        if corrects then engine.correctFiles workspace files schedule
        else engine.checkFiles workspace files (fun _ => []) schedule
      let told := session.tellAll done.notices
      let corrected := done.result.corrected
      let session :=
        if corrected = 0 then told
        else told.complain ("Corrected " ++ Text.ofNat corrected ++ " offense(s).\n")
      (.ok (done.result, done.workspace.disk), session)

/-! ### Reporting -/

/-- How a run writes violations as text. -/
def formatOf (arguments : Arguments) : Format :=
  if arguments.plainOutput then .plain else .compiler

/-- Prints what was found, and gives the exit code.  As text a report is prepared once more.  As JSON nothing is printed
if one of the violations has no record. -/
def report (host : Host) (arguments : Arguments) (found : Findings) (session : Session) : Step Nat :=
  let empty := { Reporter.empty (formatOf arguments) with corrected := found.corrected }
  let reporter := (empty.add found.violations).prepared
  let summary := reporter.summary
  let session := session.tellAll (Logger.endNotices summary.total summary.errors summary.warnings host.elapsed)
  if arguments.jsonOutput then
    match reporter.json (some host.runId) [(.text "created_at", .text host.createdAt)] with
    | .ok json => (.ok reporter.exitCode, session.print (json ++ "\n"))
    | .error error => (.error (.encoding error), session)
  else
    let shown := reporter.prepared
    let printed := session.print shown.text
    (.ok shown.exitCode, if arguments.verbose then printed.complain shown.summary.text else printed)

/-! ### Runs -/

/-- How a run ends: with an exit code or a failure, and with the files that are left. -/
structure Ending where
  outcome : Except RunError Nat
  disk : Disk

def projectRoot (disk : Disk) (asked : Option Text) : Except RunError Path :=
  match asked with
  | none => .ok disk.currentPath
  | some text =>
      if text.contains (.glyph '\x00') then .error (.badRoot .nulByte) else .ok (disk.resolved (.ofText text))

/-- The work on files that have been collected. -/
def work (host : Host) (arguments : Arguments) (root : Path) (settings : Settings) (files : List Text)
    (session : Session) : Ending × Session :=
  let session := session.tellAll (Logger.startNotices root.text files.length arguments.autocorrect)
  let session := session.tellAll (Logger.listNotices .debug "Files" files 20)
  let session := session.echo ("Checking " ++ Text.ofNat files.length ++ " file(s)...")
  let (linted, session) := session.phase "python_rules_check" host.elapsed RunError.message
    (lint host.schedule host.disk root settings arguments.autocorrect files)
  match linted with
  | .error error => (⟨.error error, host.disk⟩, session)
  | .ok (found, disk) =>
      let (reported, session) := report host arguments found session
      (⟨reported.map fun exitCode => if settings.failOnError then exitCode else 0, disk⟩, session)

def inProject (host : Host) (arguments : Arguments) (root : Path) (session : Session) : Ending × Session :=
  let session := session.tell (.debug ("Arguments: " ++ (Value.mapping arguments.toRecord).shown))
  let (settings, session) := session.phase "config_loading" host.elapsed RunError.message
    (loadSettings host.readSettings host.disk root arguments.config)
  match settings with
  | .error error => (⟨.error error, host.disk⟩, session)
  | .ok settings =>
      let (files, session) := session.phase "file_discovery" host.elapsed RunError.message
        (collectFiles host.disk root settings arguments.files)
      match files with
      | .error error => (⟨.error error, host.disk⟩, session)
      | .ok [] => (⟨.ok 0, host.disk⟩, (session.tell (.info "No files to check")).echo "No files to check.")
      | .ok files => work host arguments root settings files session

/-- A run up to its end or its failure. -/
def attempt (host : Host) (arguments : Arguments) (session : Session) : Ending × Session :=
  match projectRoot host.disk arguments.projectRoot with
  | .error error => (⟨.error error, host.disk⟩, session)
  | .ok root =>
      if host.interrupted then (⟨.error .interrupted, host.disk⟩, session) else inProject host arguments root session

/-- Tells of a failure, and gives the exit code. -/
def fail (logPath : Text) (error : RunError) (session : Session) : Nat × Session :=
  match error with
  | .interrupted => (130, (session.tell (.warning "Interrupted by user")).complain "\nInterrupted.\n")
  | _ =>
      if error.blamesSettings then
        let line := "Config error: " ++ error.message
        (1, (session.tell (.error line)).complain (line ++ "\n"))
      else
        let told := session.write (session.logger.fail ("Unexpected error: " ++ error.message))
        let printed := told.complain ("Error: " ++ error.message ++ " (log: " ++ logPath ++ ")\n")
        (1, if session.verbose then printed.complain Logger.traceLine else printed)

def withArguments (host : Host) (arguments : Arguments) : RunResult :=
  let (opened, journal) := host.journal.get "rblint"
  let logger := if arguments.verbose then opened.openConsole Level.info.rank else opened
  let (removed, journal) :=
    match journal.cleanup Journal.retentionDays with
    | .ok cleaned => cleaned
    | .error _ => (0, journal)
  let fresh := Session.start logger arguments.verbose
  let started :=
    if removed = 0 then fresh else fresh.tell (.debug ("Removed " ++ Text.ofNat removed ++ " expired log files"))
  match attempt host arguments started with
  | (⟨.ok exitCode, disk⟩, session) =>
      let ended := session.tell (.debug ("Exit code: " ++ Text.ofNat exitCode))
      ⟨exitCode, ended.stdout, ended.stderr, ended.log, disk, journal⟩
  | (⟨.error error, disk⟩, session) =>
      let (exitCode, ended) := fail host.logPath error session
      ⟨exitCode, ended.stdout, ended.stderr, ended.log, disk, journal⟩

end Run

/-! ### The program -/

def versionText : Text := "rblint 1.0.0\n"

/-- How the linter is called. -/
def usageText : Text :=
  "usage: rblint [-h] [--config CONFIG] [--project-root PROJECT_ROOT]\n" ++
  "              [--files FILES [FILES ...]] [--autocorrect] [--list-rules]\n" ++
  "              [--json-output] [--plain-output] [--verbose] [--version]\n"

/-- The rules that come with the linter, a line for each. -/
def ruleListText : Text :=
  builtinRules.flatMap fun info =>
    info.identifier ++ ": " ++ info.displayName ++ " - " ++ info.description ++ "\n"

/-- A run that only prints something. -/
def Host.finish (host : Host) (exitCode : Nat) (stdout stderr : Text) : RunResult :=
  ⟨exitCode, stdout, stderr, [], host.disk, host.journal⟩

/-- The line about arguments that are not understood. -/
def UsageError.line (error : UsageError) : Text :=
  "rblint: error: " ++ error.message

/-- What the program does with arguments. -/
def runProgram (host : Host) (given : List Text) : RunResult :=
  match Arguments.read given with
  | .error error => host.finish 2 [] (usageText ++ error.line ++ "\n")
  | .ok .help => host.finish 0 usageText []
  | .ok .version => host.finish 0 versionText []
  | .ok (.run arguments) =>
      if arguments.listRules then host.finish 0 ruleListText [] else Run.withArguments host arguments

end AccessorLint
