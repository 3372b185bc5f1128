import AccessorLint.Edit.Buffer
import AccessorLint.Text.Strict
import AccessorLint.Value.Shown
set_option autoImplicit false

/-!
Violations: what a rule found, where, and how it can be corrected.

A violation is written as a record and read back from one.  The record tells whether the violation can be corrected,
but not how, and leaves out optional fields that are empty.  It holds the identity of the violation, so there is none
where stray bytes leave the violation without one.
-/

namespace AccessorLint

/-- How serious a violation is. -/
inductive Severity where
  | error
  | warning
  | note
deriving DecidableEq, Repr

namespace Severity

def name : Severity → Text
  | error => "error"
  | warning => "warning"
  | note => "note"

def capitalName : Severity → Text
  | error => "ERROR"
  | warning => "WARNING"
  | note => "NOTE"

/-- All severities, the most serious first. -/
def all : List Severity := [error, warning, note]

def ofName? (name : Text) : Option Severity :=
  all.find? fun severity => severity.name == name

def ofValue? : Value → Option Severity
  | .scalar (.text name) => ofName? name
  | _ => none

end Severity

structure Violation where
  filePath : Text
  line : Int
  column : Int
  severity : Severity
  message : Text
  ruleId : Text
  /-- The program that found it. -/
  source : Text
  /-- The first and the last line of the method. -/
  relatedLines : Option (Int × Int)
  /-- The source text around it. -/
  context : Option Text
  /-- The digest of the context. -/
  codeHash : Option Text
  subType : Option Text
  ruleName : Option Text
  /-- The edits that correct it, if it can be corrected. -/
  correction : Option (List Edit)
deriving DecidableEq, Repr

/-- The name of this program in violations. -/
def toolName : Text := "rblint"

/-- Why a record is no violation. -/
inductive RecordError where
  | missing (field : Text)
  | unknownSeverity (value : Value)

def RecordError.message : RecordError → Text
  | missing field => field.quoted
  | unknownSeverity value => value.shown ++ " is not a valid Severity"

namespace Violation

/-- Whether the violation can be corrected. -/
def isCorrectable (violation : Violation) : Bool :=
  violation.correction.isSome

/-- The text unless it is empty. -/
def nonempty (text : Option Text) : Option Text :=
  text.filter fun content => !content.isEmpty

/-- The identity of a violation.  It depends on the line only by its distance from the first line of the method, so it
stays when the method moves.  A violation in a file whose name has stray bytes has none. -/
def id (violation : Violation) : Except Text.EncodingError Text :=
  let anchor := (violation.relatedLines.map Prod.fst).getD violation.line
  Text.digest <| Text.joined "|" [
    violation.filePath,
    violation.ruleId,
    (nonempty violation.subType).getD "default",
    violation.codeHash.getD [],
    Text.ofInt (violation.line - anchor),
    Text.ofInt violation.column]

/-! ### As a line -/

/-- The position as compilers write it. -/
def place (violation : Violation) : Text :=
  violation.filePath ++ ":" ++ Text.ofInt violation.line ++ ":" ++ Text.ofInt violation.column

def compilerLine (violation : Violation) : Text :=
  violation.place ++ ": " ++ violation.severity.name ++ ": " ++ violation.message ++ " [" ++ violation.ruleId ++ "]"

/-- The violation as a reader likes it. -/
def plainLine (violation : Violation) : Text :=
  let marker : Text := if violation.isCorrectable then " [Correctable]" else []
  "[" ++ violation.severity.capitalName ++ "] " ++ violation.place ++ " - " ++ violation.message ++
    " (" ++ violation.ruleId ++ ")" ++ marker

/-! ### As a record -/

/-- An entry of a record. -/
def field (name : Text) (value : Value) : Scalar × Value :=
  (.text name, value)

/-- The entry of an optional text, unless it is empty. -/
def optionalField (name : Text) (text : Option Text) : Entries :=
  ((nonempty text).map fun content => field name (.text content)).toList

def linesValue (lines : Int × Int) : Value :=
  .list [.int lines.1, .int lines.2]

/-- The record of a violation with an identity. -/
def recordWith (violation : Violation) (identity : Text) : Entries :=
  [field "file_path" (.text violation.filePath),
    field "line" (.int violation.line),
    field "column" (.int violation.column),
    field "severity" (.text violation.severity.name),
    field "message" (.text violation.message),
    field "rule_id" (.text violation.ruleId),
    field "source" (.text violation.source),
    field "correctable" (.bool violation.isCorrectable),
    field "violation_id" (.text identity)] ++
  (violation.relatedLines.map fun lines => field "related_lines" (linesValue lines)).toList ++
  optionalField "context" violation.context ++
  optionalField "code_hash" violation.codeHash ++
  optionalField "sub_type" violation.subType ++
  optionalField "rule_name" violation.ruleName

/-- The record of a violation, if it has an identity. -/
def toRecord (violation : Violation) : Except Text.EncodingError Entries := do
  let identity ← violation.id
  pure (violation.recordWith identity)

def textOf? : Value → Option Text
  | .scalar (.text text) => some text
  | _ => none

def numberOf? : Value → Option Int
  | .scalar (.int number) => some number
  | _ => none

def linesOf? : Value → Option (Int × Int)
  | .list [.scalar (.int first), .scalar (.int last)] => some (first, last)
  | _ => none

def required (record : Entries) (name : Text) : Except RecordError Value :=
  match record.find? name with
  | some value => .ok value
  | none => .error (.missing name)

/-- The severity of a record; a warning if it tells none. -/
def severityOf (record : Entries) : Except RecordError Severity :=
  match record.find? "severity" with
  | none => .ok .warning
  | some value =>
      match Severity.ofValue? value with
      | some severity => .ok severity
      | none => .error (.unknownSeverity value)

/-- The violation of a record.  It cannot be corrected. -/
def ofRecord (record : Entries) : Except RecordError Violation := do
  let filePath ← required record "file_path"
  let line ← required record "line"
  let column ← required record "column"
  let severity ← severityOf record
  let ruleId ← required record "rule_id"
  pure {
    filePath := (textOf? filePath).getD []
    line := (numberOf? line).getD 0
    column := (numberOf? column).getD 0
    severity := severity
    message := (record.find? "message" >>= textOf?).getD []
    ruleId := (textOf? ruleId).getD []
    source := (record.find? "source" >>= textOf?).getD toolName
    relatedLines := record.find? "related_lines" >>= linesOf?
    context := record.find? "context" >>= textOf?
    codeHash := record.find? "code_hash" >>= textOf?
    subType := record.find? "sub_type" >>= textOf?
    ruleName := record.find? "rule_name" >>= textOf?
    correction := none }

/-- Whether two violations tell the same, whatever corrects them. -/
def sameAs (left right : Violation) : Bool :=
  { left with correction := none } == { right with correction := none }

end Violation

end AccessorLint
