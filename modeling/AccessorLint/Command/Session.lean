import AccessorLint.Journal.Basic
set_option autoImplicit false

/-!
Sessions: what a run has written so far, and the logger that it tells its progress.  The streams take every text, also
one with stray bytes.
-/

namespace AccessorLint

structure Session where
  logger : Logger
  /-- Whether progress is printed. -/
  verbose : Bool
  stdout : Text
  stderr : Text
  /-- What the log file has been given. -/
  log : Text
deriving DecidableEq, Repr

namespace Session

/-- A session in which nothing has been written. -/
def start (logger : Logger) (verbose : Bool) : Session :=
  ⟨logger, verbose, [], [], []⟩

/-- The session after a logger has written something. -/
def write (session : Session) (written : Written) : Session :=
  { session with stderr := session.stderr ++ written.console, log := session.log ++ written.file }

/-- Tells the logger something. -/
def tell (session : Session) (notice : Notice) : Session :=
  session.write (session.logger.tell notice)

/-- Tells the logger several things. -/
def tellAll (session : Session) (notices : List Notice) : Session :=
  session.write (session.logger.tellAll notices)

def print (session : Session) (text : Text) : Session :=
  { session with stdout := session.stdout ++ text }

/-- Prints a text to the error stream. -/
def complain (session : Session) (text : Text) : Session :=
  { session with stderr := session.stderr ++ text }

/-- Prints a line to the error stream if progress is printed. -/
def echo (session : Session) (line : Text) : Session :=
  if session.verbose then session.complain (line ++ "\n") else session

/-- Does a part of the work as a phase.  Its failure is told with the phase and handed on. -/
def phase {α ε : Type} (session : Session) (name elapsed : Text) (message : ε → Text)
    (work : Session → Except ε α × Session) : Except ε α × Session :=
  let (logger, started) := session.logger.enter name
  let (result, worked) := work ({ session with logger := logger }.write started)
  let failure : Option Text :=
    match result with
    | .ok _ => none
    | .error error => some (message error)
  let (logger, ended) := worked.logger.leave elapsed failure
  (result, { worked with logger := logger }.write ended)

end Session

end AccessorLint
