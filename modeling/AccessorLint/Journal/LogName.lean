import AccessorLint.Files.Path
import AccessorLint.Journal.Moment
set_option autoImplicit false

/-!
Names of log files: the name of a logger and the moment at which its session started.
-/

namespace AccessorLint.LogName

/-- The name of the log file of a logger. -/
def ofSession (logger : Text) (start : Moment) : Text :=
  logger ++ "_" ++ start.stamp ++ ".log"

/-! ### Reading a moment -/

/-- The value of a digit of any script. -/
def digit? (symbol : Symbol) : Option Nat :=
  symbol.char? >>= Text.decimalValue?

/-- The number of two digits.  The first has to be an ASCII digit, and so has the second unless the first is one after
which any digit may follow. -/
def pair? (isFree : Nat → Bool) (symbols : Text) : Option Nat :=
  match symbols with
  | [high, low] => do
      let tens ← digit? high
      let ones ← digit? low
      let plain (symbol : Symbol) : Bool := symbol.satisfies Char.isDigit
      if plain high && (plain low || isFree tens) then some (10 * tens + ones) else none
  | _ => none

/-- The number of digits of any script. -/
def number? (symbols : Text) : Option Nat :=
  symbols.foldl (fun number symbol => do
    let high ← number
    let low ← digit? symbol
    some (10 * high + low)) (some 0)

/-- The moment that a stamp writes: eight digits, an underscore and six digits. -/
def readStamp? (stamp : Text) : Option Moment := do
  let part (start count : Nat) : Text := (stamp.drop start).take count
  if stamp.length ≠ 15 || stamp[8]? ≠ some (.glyph '_') then none
  else
    let moment : Moment := {
      year := ← number? (part 0 4)
      month := ← pair? (fun _ => false) (part 4 2)
      day := ← pair? (fun tens => tens = 1 || tens = 2) (part 6 2)
      hour := ← pair? (· < 2) (part 9 2)
      minute := ← pair? (· < 6) (part 11 2)
      second := ← pair? (· < 6) (part 13 2) }
    if moment.isValid then some moment else none

/-- The moment that the name of a log file tells, if it is the name of one.  A newline at its end means nothing. -/
def moment? (path : Text) : Option Moment :=
  let name := (Path.ofText path).name
  let bare := if name.getLast? = some Symbol.newline then name.dropLast else name
  let ending : Text := ".log"
  let stem := bare.take (bare.length - ending.length)
  let logger := stem.take (stem.length - 16)
  let stamp := stem.drop (stem.length - 15)
  if bare = stem ++ ending && !logger.isEmpty && !logger.contains Symbol.newline &&
      stem = logger ++ "_" ++ stamp then readStamp? stamp
  else none

end AccessorLint.LogName
