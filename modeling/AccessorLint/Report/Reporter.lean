import AccessorLint.Report.Violation
import AccessorLint.Value.Json
set_option autoImplicit false

/-!
The report of a run: its violations in order, a summary of them, and the two as JSON.
-/

namespace AccessorLint

/-- How violations are written. -/
inductive Format where
  | compiler
  | plain
deriving DecidableEq, Repr

namespace Format

def ofName? (name : Text) : Option Format :=
  if name = "compiler" then some .compiler else if name = "plain" then some .plain else none

/-- The refusal of a name. -/
def unknownMessage (name : Text) : Text :=
  "Unknown output format: " ++ name

def line : Format → Violation → Text
  | compiler => Violation.compilerLine
  | plain => Violation.plainLine

end Format

/-- The violations of a run, and how many have been corrected. -/
structure Reporter where
  format : Format
  violations : List Violation
  corrected : Int
deriving DecidableEq, Repr

/-- The counts of a report. -/
structure Summary where
  total : Nat
  errors : Nat
  warnings : Nat
  correctable : Nat
  corrected : Int
  filesAffected : Nat
deriving DecidableEq, Repr

namespace Reporter

/-- A report without violations. -/
def empty (format : Format) : Reporter :=
  ⟨format, [], 0⟩

def add (reporter : Reporter) (violations : List Violation) : Reporter :=
  { reporter with violations := reporter.violations ++ violations }

/-- Whether two violations are about one place and one rule. -/
def coincide (left right : Violation) : Bool :=
  left.filePath == right.filePath && left.line == right.line && left.column == right.column &&
    left.ruleId == right.ruleId

/-- The violations of a list, of those that coincide only the first. -/
def firsts : List Violation → List Violation
  | [] => []
  | violation :: rest => violation :: (firsts rest).filter fun other => !coincide violation other

/-- The report with one violation for each place and rule, the one added first. -/
def deduplicate (reporter : Reporter) : Reporter :=
  { reporter with violations := firsts reporter.violations }

/-- Whether a violation comes no later than another: by path, then by line, then by column. -/
def comesBefore (left right : Violation) : Bool :=
  if left.filePath = right.filePath then
    if left.line = right.line then decide (left.column ≤ right.column) else decide (left.line < right.line)
  else left.filePath.le right.filePath

/-- The report in order.  Violations at one place keep theirs. -/
def sort (reporter : Reporter) : Reporter :=
  { reporter with violations := reporter.violations.mergeSort comesBefore }

/-- Whether a violation is an error. -/
def hasErrors (reporter : Reporter) : Bool :=
  reporter.violations.any fun violation => violation.severity == .error

/-- The exit code of a report: one if it has errors. -/
def exitCode (reporter : Reporter) : Nat :=
  if reporter.hasErrors then 1 else 0

/-- The report as it is printed. -/
def prepared (reporter : Reporter) : Reporter :=
  reporter.deduplicate.sort

/-- The violations of a report, a line for each. -/
def text (reporter : Reporter) : Text :=
  reporter.violations.flatMap fun violation => reporter.format.line violation ++ "\n"

def summary (reporter : Reporter) : Summary :=
  { total := reporter.violations.length
    errors := reporter.violations.countP fun violation => violation.severity == .error
    warnings := reporter.violations.countP fun violation => violation.severity == .warning
    correctable := reporter.violations.countP Violation.isCorrectable
    corrected := reporter.corrected
    filesAffected := (reporter.violations.map Violation.filePath).eraseDups.length }

end Reporter

namespace Summary

def toRecord (summary : Summary) : Entries :=
  [(.text "total", .int summary.total),
    (.text "errors", .int summary.errors),
    (.text "warnings", .int summary.warnings),
    (.text "correctable", .int summary.correctable),
    (.text "corrected", .int summary.corrected),
    (.text "files_affected", .int summary.filesAffected)]

/-- The counts as a reader likes them. -/
def text (summary : Summary) : Text :=
  let rule := Text.repeated 50 '='
  let line (label : String) (count : Int) : Text := "  " ++ label ++ ": " ++ Text.ofInt count ++ "\n"
  "\n" ++ rule ++ "\nRbLint Summary:\n" ++
    line "Total violations" summary.total ++
    line "Errors" summary.errors ++
    line "Warnings" summary.warnings ++
    line "Correctable" summary.correctable ++
    line "Corrected" summary.corrected ++
    line "Files affected" summary.filesAffected ++
    rule ++ "\n\n"

end Summary

namespace Reporter

/-- The report as a record, with the name of the run and further entries.  There is none if a violation has none. -/
def toRecord (reporter : Reporter) (runId : Option Text) (extra : Entries) : Except Text.EncodingError Entries := do
  let records ← reporter.violations.mapM Violation.toRecord
  let base : Entries :=
    [(.text "summary", .mapping reporter.summary.toRecord), (.text "violations", .list (records.map Value.mapping))]
  let named := ((Violation.nonempty runId).map fun run => (Scalar.text "run_id", Value.text run)).toList
  pure (extra.foldl (fun record (name, value) => Entries.set name value record) (base ++ named))

def json (reporter : Reporter) (runId : Option Text) (extra : Entries) : Except Text.EncodingError Text := do
  let record ← reporter.toRecord runId extra
  pure ((Value.mapping record).json 0)

end Reporter

end AccessorLint
