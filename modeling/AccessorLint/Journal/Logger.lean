import AccessorLint.Journal.Notice
import AccessorLint.Value.Shown
set_option autoImplicit false

/-!
Loggers: where the notices of a run go.

A logger writes notices to a log file, and to the console if it has one.  Notices told during a phase start with the
names of the phases around them.
-/

namespace AccessorLint

structure Logger where
  name : Text
  /-- The phases that have started, the outermost first. -/
  phases : List Text
  writesFile : Bool
  /-- The rank from which on it writes to the console, if it does. -/
  console : Option Int
  /-- The ranks of the consoles that others have opened for it. -/
  otherConsoles : List Int
deriving DecidableEq, Repr

/-- What is written to the log file and to the console. -/
structure Written where
  file : Text
  console : Text
deriving DecidableEq, Repr

namespace Written

def nothing : Written := ⟨[], []⟩

def append (first second : Written) : Written :=
  ⟨first.file ++ second.file, first.console ++ second.console⟩

instance : Append Written := ⟨append⟩

def all (parts : List Written) : Written :=
  parts.foldl append nothing

end Written

namespace Logger

def ofName (name : Text) : Logger :=
  ⟨name, [], true, none, []⟩

/-- The logger with a console for notices of a rank or higher. -/
def openConsole (logger : Logger) (rank : Int) : Logger :=
  { logger with console := some rank }

/-- The logger without a file and without a console. -/
def close (logger : Logger) : Logger :=
  { logger with writesFile := false, console := none, otherConsoles := [] }

/-! ### Phases -/

/-- The logger inside a phase more. -/
def push (logger : Logger) (phase : Text) : Logger :=
  { logger with phases := logger.phases ++ [phase] }

/-- The logger outside the innermost phase. -/
def pop (logger : Logger) : Logger :=
  { logger with phases := logger.phases.dropLast }

/-- A message with the phases around it. -/
def inPhases (logger : Logger) (message : Text) : Text :=
  if logger.phases.isEmpty then message else "[" ++ Text.joined "/" logger.phases ++ "] " ++ message

/-! ### Telling -/

/-- The line that stands for the trace of a failure. -/
def traceLine : Text := "<traceback>\n"

/-- What a logger writes when it is told something.  A failure may be followed by its trace. -/
def write (logger : Logger) (notice : Notice) (traced : Bool) : Written :=
  let message := logger.inPhases notice.message
  let trace := if traced then traceLine else []
  let fileLine := "[" ++ notice.level.name ++ "] [rblint." ++ logger.name ++ "] " ++ message ++ "\n" ++ trace
  let consoleLine := "[" ++ notice.level.name ++ "] " ++ message ++ "\n" ++ trace
  let consoles := (logger.console.toList ++ logger.otherConsoles).filter (· ≤ notice.level.rank)
  ⟨if logger.writesFile then fileLine else [], consoles.flatMap fun _ => consoleLine⟩

/-- What a logger writes when it is told something. -/
def tell (logger : Logger) (notice : Notice) : Written :=
  logger.write notice false

/-- What a logger writes when it is told of a failure with a trace. -/
def fail (logger : Logger) (message : Text) : Written :=
  logger.write (.error message) true

/-- What a logger writes when it is told several things. -/
def tellAll (logger : Logger) (notices : List Notice) : Written :=
  .all (notices.map logger.tell)

/-! ### Messages of several lines -/

def separatorWidth : Nat := 60

/-- A text in the middle of a line of equals signs.  An odd one stands on the right. -/
def centred (text : Text) : Text :=
  let missing := separatorWidth - text.length
  Text.repeated (missing / 2) '=' ++ text ++ Text.repeated (missing - missing / 2) '='

def separator (title : Text) : Notice :=
  .info (centred (if title.isEmpty then [] else " " ++ title ++ " "))

/-- The items of a list before a place.  A negative place counts from the end. -/
def itemsBefore {α : Type} (items : List α) (place : Int) : List α :=
  items.take (if place < 0 then items.length + place else place).toNat

/-- The notices on a list: its title, its items up to a number, and how many more there are. -/
def listNotices (level : Level) (title : Text) (items : List Text) (maxItems : Int) : List Notice :=
  let head : Text := title ++ " (" ++ Text.ofNat items.length ++ " items):"
  let shown := (itemsBefore items maxItems).mapIdx fun index item => "  [" ++ Text.ofNat index ++ "] " ++ item
  let rest : List Text :=
    if maxItems < items.length then ["  ... and " ++ Text.ofInt (items.length - maxItems) ++ " more"] else []
  ([head] ++ shown ++ rest).map fun message => ⟨level, message⟩

def startNotices (projectRoot : Text) (fileCount : Int) (corrects : Bool) : List Notice := [
  separator "RbLint Session Start",
  .info ("Project root: " ++ projectRoot),
  .info ("Files to check: " ++ Text.ofInt fileCount),
  .info ("Autocorrect mode: " ++ (Scalar.bool corrects).shown)]

def endNotices (violations errors warnings : Int) (elapsed : Text) : List Notice := [
  .info ("Lint completed in " ++ elapsed ++ "s"),
  .info ("Total violations: " ++ Text.ofInt violations ++ " (errors: " ++ Text.ofInt errors ++ ", warnings: " ++
    Text.ofInt warnings ++ ")"),
  separator "RbLint Session End"]

/-! ### Phases that tell of themselves -/

/-- Starts a phase and says so. -/
def enter (logger : Logger) (phase : Text) : Logger × Written :=
  let inside := logger.push phase
  (inside, inside.tell (.debug "Started"))

/-- Ends the innermost phase and says how long it took, and why it failed if it did. -/
def leave (logger : Logger) (elapsed : Text) (failure : Option Text) : Logger × Written :=
  match failure with
  | none => (logger.pop, logger.tell (.debug ("Completed in " ++ elapsed ++ "s")))
  | some reason => (logger.pop, logger.fail ("Failed after " ++ elapsed ++ "s: " ++ reason))

end Logger

end AccessorLint
