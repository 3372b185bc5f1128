import AccessorLint.Report.Context
import AccessorLint.Report.Template
import AccessorLint.Report.Violation
set_option autoImplicit false

/-!
Findings: what a rule says about a place, and the violation that is made of it.
-/

namespace AccessorLint

/-- What violations tell about the rule that found them. -/
structure RuleProfile where
  identifier : Text
  /-- The name for readers; empty if there is none. -/
  displayName : Text
  severity : Severity
deriving DecidableEq, Repr

/-- A kind of violations: its name and the template of its messages. -/
structure ViolationKind where
  subType : Text
  template : Text
deriving DecidableEq, Repr

/-- Something found at a place of a file. -/
structure Finding where
  filePath : Text
  line : Int
  column : Int
  kind : ViolationKind
  /-- The texts that the template asks for. -/
  bindings : Template.Bindings
  /-- The lines that belong to it; only its own if they are not given. -/
  relatedLines : Option (Int × Int)
  /-- The source text around it; cut from the file if it is not given. -/
  context : Option Text
  correction : Option (List Edit)
deriving DecidableEq, Repr

/-- Why a finding makes no violation. -/
inductive FindingError where
  | template (error : Template.TemplateError)
  | encoding (error : Text.EncodingError)
deriving DecidableEq, Repr

def FindingError.message : FindingError → Text
  | template error => error.message
  | encoding error => error.message

namespace Finding

/-- The lines that belong to a finding. -/
def relatedRange (finding : Finding) : Int × Int :=
  finding.relatedLines.getD (finding.line, finding.line)

/-- The source text around a finding in a file with these lines. -/
def contextIn (lines : List Text) (finding : Finding) : Text :=
  finding.context.getD (Context.ofLines lines finding.relatedRange.1 finding.relatedRange.2)

/-- The violation that a rule makes of a finding in a file with these lines. -/
def violation (profile : RuleProfile) (lines : List Text) (finding : Finding) : Except FindingError Violation := do
  let context := finding.contextIn lines
  let message ← (Template.fill finding.kind.template finding.bindings).mapError .template
  let hash ← (Context.hash context).mapError .encoding
  pure {
    filePath := finding.filePath
    line := finding.line
    column := finding.column
    severity := profile.severity
    message := message
    ruleId := profile.identifier
    source := toolName
    relatedLines := some finding.relatedRange
    context := some context
    codeHash := some hash
    subType := some finding.kind.subType
    ruleName := if profile.displayName.isEmpty then none else some profile.displayName
    correction := finding.correction }

end Finding

end AccessorLint
