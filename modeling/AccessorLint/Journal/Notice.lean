import AccessorLint.Text.Symbol
set_option autoImplicit false

/-!
Notices: what a run tells about its own progress, by importance.
-/

namespace AccessorLint

/-- How important a notice is. -/
inductive Level where
  | debug
  | info
  | warning
  | error
  | critical
deriving DecidableEq, Repr

namespace Level

/-- The number that orders levels. -/
def rank : Level → Int
  | debug => 10
  | info => 20
  | warning => 30
  | error => 40
  | critical => 50

def name : Level → Text
  | debug => "DEBUG"
  | info => "INFO"
  | warning => "WARNING"
  | error => "ERROR"
  | critical => "CRITICAL"

/-- The level with a name in small letters; what has no level is for those who look for faults. -/
def ofName (name : Text) : Level :=
  if name = "info" then info
  else if name = "warning" then warning
  else if name = "error" then error
  else if name = "critical" then critical
  else debug

end Level

structure Notice where
  level : Level
  message : Text
deriving DecidableEq, Repr

namespace Notice

/-- A notice for those who look for faults. -/
def debug (message : Text) : Notice := ⟨.debug, message⟩

def info (message : Text) : Notice := ⟨.info, message⟩

/-- A notice on something doubtful. -/
def warning (message : Text) : Notice := ⟨.warning, message⟩

def error (message : Text) : Notice := ⟨.error, message⟩

end Notice

end AccessorLint
