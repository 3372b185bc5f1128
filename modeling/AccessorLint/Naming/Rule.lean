import AccessorLint.Files.Path
import AccessorLint.Naming.Patterns
import AccessorLint.Settings.Rule
import AccessorLint.Source.Declaration
set_option autoImplicit false

/-!
The naming rule: it finds accessors that take arguments, and corrects a name where the new name would be one.
-/

namespace AccessorLint.Naming

open Pattern (Regex)
open Source (Declaration)

/-- The naming rule under some settings. -/
structure NamingRule where
  enabled : Bool
  severity : Severity
  patterns : PatternSets
  corrects : Bool
  /-- The directory of the project, if it is known. -/
  projectRoot : Option Path
deriving Repr

/-- Why settings give no rule. -/
inductive RuleError where
  | unknownSeverity (name : Text)
  | patterns (error : PatternsError)
deriving Repr

def RuleError.message : RuleError → Text
  | unknownSeverity name => name.quoted ++ " is not a valid Severity"
  | patterns error => error.message

namespace NamingRule

def identifier : Text := "method_name_get_prefix"

/-- The name of the rule for readers. -/
def displayName : Text := "get_/set_ 方法命名"

/-! ### From settings -/

/-- The severity that settings give: a warning unless they name another. -/
def severityOf (settings : RuleSettings) : Except RuleError Severity :=
  match settings.severity with
  | none => .ok .warning
  | some name =>
      if name.isEmpty then .ok .warning
      else
        match Severity.ofName? name with
        | some severity => .ok severity
        | none => .error (.unknownSeverity name)

/-- The patterns that a parameter gives, or those that hold without it. -/
def patternsOf (settings : RuleSettings) (parameter : Text) (otherwise : List Regex) :
    Except RuleError (List Regex) :=
  match settings.param? parameter with
  | none => .ok otherwise
  | some value => (readPatterns parameter value).mapError .patterns

def patternSetsOf (settings : RuleSettings) : Except RuleError PatternSets := do
  let httpGet ← patternsOf settings "http_get_patterns" PatternSets.default.httpGet
  let httpGetWrapper ← patternsOf settings "http_get_wrapper_patterns" PatternSets.default.httpGetWrapper
  let apiFile ← patternsOf settings "api_file_patterns" PatternSets.default.apiFile
  pure ⟨httpGet, httpGetWrapper, apiFile⟩

def ofSettings (settings : RuleSettings) (projectRoot : Option Path) : Except RuleError NamingRule := do
  let severity ← severityOf settings
  let patterns ← patternSetsOf settings
  pure {
    enabled := settings.enabled
    severity := severity
    patterns := patterns
    corrects := ((settings.params.find? "autocorrect").map Value.isTruthy).getD true
    projectRoot := projectRoot }

/-! ### Checking -/

/-- What violations tell about the rule. -/
def profile (rule : NamingRule) : RuleProfile :=
  ⟨identifier, displayName, rule.severity⟩

/-- The path of a file inside a project.  There is none if the path is relative or leads elsewhere. -/
def pathInProject? (projectRoot : Option Path) (filePath : Text) : Option Text := do
  let root ← projectRoot
  let path := Path.ofText filePath
  if path.isAbsolute then (path.relativeTo? root).map Path.text else none

/-- The path by which a method is classified: inside the project it starts at the project, so that it does not matter
where the project is. -/
def viewedPath (rule : NamingRule) (filePath : Text) : Text :=
  match pathInProject? rule.projectRoot filePath with
  | some path => "/" ++ path
  | none => filePath

/-- What is wrong with the name of a method definition. -/
def outcome (rule : NamingRule) (declaration : Declaration) : Outcome :=
  classify rule.patterns {
    name := declaration.name
    argumentCount := declaration.argumentCount
    sourceText := declaration.sourceText
    filePath := rule.viewedPath declaration.filePath }

/-- The edit that renames a method. -/
def nameEdit (declaration : Declaration) (newName : Text) : Edit :=
  ⟨declaration.nameRange.start, declaration.nameRange.stop, newName⟩

/-- The edits that correct the name of a method, if it is to be corrected and can be. -/
def correction (rule : NamingRule) (declaration : Declaration) (outcome : Outcome) : Option (List Edit) :=
  if rule.corrects && canRename declaration.name then
    (suggestions declaration.name outcome).head?.map fun newName => [nameEdit declaration newName]
  else none

/-- What the rule finds about a method definition, unless nothing is wrong.  Without the lines of the file its source
text is the context. -/
def finding? (rule : NamingRule) (lines : Option (List Text)) (declaration : Declaration) : Option Finding :=
  let outcome := rule.outcome declaration
  if outcome = .skip then none
  else
    some {
      filePath := declaration.filePath
      line := declaration.nameRange.line
      column := declaration.nameRange.column
      kind := outcome.kind
      bindings := bindings declaration.name outcome
      relatedLines := some (declaration.relatedLines.1, declaration.relatedLines.2)
      context := if lines.isNone then some declaration.sourceText else none
      correction := rule.correction declaration outcome }

/-- The violation of a method definition, unless nothing is wrong. -/
def violation? (rule : NamingRule) (lines : Option (List Text)) (declaration : Declaration) :
    Except FindingError (Option Violation) :=
  match rule.finding? lines declaration with
  | none => .ok none
  | some finding => (finding.violation rule.profile (lines.getD [])).map some

/-- Whether a line counts: all do if no lines are given. -/
def isSelected (selected : List Int) (line : Int) : Bool :=
  selected.isEmpty || selected.contains line

/-- The violations of a file: of the method definitions whose names stand on lines that count. -/
def check (rule : NamingRule) (filePath content : Text) (lines : List Text) (selected : List Int) :
    Except FindingError (List Violation) := do
  let declarations := (Declaration.scan content filePath).filter fun declaration =>
    isSelected selected declaration.nameRange.line
  let found ← declarations.mapM (rule.violation? (some lines))
  pure (found.filterMap fun violation => violation)

end NamingRule

end AccessorLint.Naming
