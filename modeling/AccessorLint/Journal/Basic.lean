import AccessorLint.Journal.LogName
import AccessorLint.Journal.Logger
set_option autoImplicit false

/-!
The journal: the loggers that have been opened, and the directory of their files.

A logger is opened when it is asked for the first time.  Old log files are removed after some days, unless an open
logger writes to them.
-/

namespace AccessorLint

structure Journal where
  loggers : List (Text × Logger)
  /-- The names in the directory of log files, if it is there. -/
  files : Option (List Text)
  /-- Whether loggers are opened with a console. -/
  verbose : Bool
  now : Moment
deriving DecidableEq, Repr

/-- Why nothing can be removed. -/
inductive CleanupError where
  /-- The calendar does not go back that far. -/
  | outsideCalendar
deriving DecidableEq, Repr

namespace Journal

/-- The directory of log files, seen from the home of the user. -/
def directory : Text := ".rblint/logs"

/-- The number of days after which log files are removed. -/
def retentionDays : Int := 7

/-- A journal without loggers. -/
def empty (files : Option (List Text)) (verbose : Bool) (now : Moment) : Journal :=
  ⟨[], files, verbose, now⟩

def withFile (journal : Journal) (name : Text) : Journal :=
  let names := journal.files.getD []
  { journal with files := some (if names.contains name then names else names ++ [name]) }

/-- The journal with a logger put in the place of the one with its name. -/
def update (journal : Journal) (logger : Logger) : Journal :=
  { journal with
    loggers := journal.loggers.map fun (name, old) => if name = logger.name then (name, logger) else (name, old) }

/-- The logger with a name, which is opened if it is not yet. -/
def get (journal : Journal) (name : Text) : Logger × Journal :=
  match journal.loggers.lookup name with
  | some logger => (logger, journal)
  | none =>
      let fresh := Logger.ofName name
      let logger := if journal.verbose then fresh.openConsole Level.info.rank else fresh
      let filed := journal.withFile (LogName.ofSession name journal.now)
      (logger, { filed with loggers := filed.loggers ++ [(name, logger)] })

/-- Opens a logger that is open already: it gets a file if it has none, and one console more if loggers have them. -/
def reopen (journal : Journal) (name : Text) : Journal :=
  let (logger, journal) := journal.get name
  let consoles := if journal.verbose then [Level.info.rank] else []
  journal.update { logger with writesFile := true, otherConsoles := logger.otherConsoles ++ consoles }

/-- The log file of a logger that is open. -/
def logFile? (journal : Journal) (name : Text) : Option Text :=
  (journal.loggers.lookup name).map fun logger => LogName.ofSession logger.name journal.now

/-- The journal with all loggers closed. -/
def reset (journal : Journal) : Journal :=
  { journal with loggers := [] }

/-! ### Old files -/

/-- The day so many days ago, if the calendar has it. -/
def dayBefore (now : Moment) (days : Int) : Except CleanupError Int :=
  let day : Int := now.dayNumber - days
  if days.natAbs ≤ 999999999 && 1 ≤ day && day ≤ Moment.lastDay then .ok day else .error .outsideCalendar

/-- Whether a log file is of a moment no later than a time of a day. -/
def isExpired (day : Int) (second : Nat) (name : Text) : Bool :=
  match LogName.moment? name with
  | none => false
  | some moment =>
      decide (moment.dayNumber < day) || (decide (moment.dayNumber = day) && decide (moment.secondOfDay ≤ second))

/-- Removes the log files that are older than so many days, and counts them.  A file to which an open logger writes
stays. -/
def cleanup (journal : Journal) (days : Int) : Except CleanupError (Nat × Journal) :=
  match journal.files with
  | none => .ok (0, journal)
  | some names => do
      let day ← dayBefore journal.now days
      let active := journal.loggers.filterMap fun (name, _) => journal.logFile? name
      let ending : Text := ".log"
      let stays (name : Text) : Bool :=
        !ending.isSuffixOf name || active.contains name || !isExpired day journal.now.secondOfDay name
      let kept := names.filter stays
      pure (names.length - kept.length, { journal with files := some kept })

end Journal

end AccessorLint
