import AccessorLint.Naming.Rule
set_option autoImplicit false

/-!
Rules as the linter runs them: whatever looks at a file and tells violations, or fails.
-/

namespace AccessorLint

/-- A file as rules see it. -/
structure SourceFile where
  path : Text
  content : Text
  lines : List Text
deriving DecidableEq, Repr

def SourceFile.ofContent (path content : Text) : SourceFile :=
  ⟨path, content, content.lines⟩

structure Rule where
  identifier : Text
  /-- How the kind of the rule is called where rules are listed. -/
  label : Text
  severity : Severity
  enabled : Bool
  /-- The violations of a file on the lines that count, or why there are none. -/
  check : SourceFile → List Int → Except Text (List Violation)

namespace Rule

def naming (rule : Naming.NamingRule) : Rule where
  identifier := Naming.NamingRule.identifier
  label := "MethodNameGetPrefixRule"
  severity := rule.severity
  enabled := rule.enabled
  check file selected := (rule.check file.path file.content file.lines selected).mapError FindingError.message

/-- A rule where rules are listed. -/
def shown (rule : Rule) : Text :=
  "<" ++ rule.label ++ " " ++ rule.identifier ++ " enabled=" ++ (Scalar.bool rule.enabled).shown ++
    " severity=" ++ rule.severity.name ++ ">"

end Rule

/-- What is told of a rule that comes with the linter. -/
structure RuleInfo where
  identifier : Text
  displayName : Text
  description : Text
deriving DecidableEq, Repr

/-- The rules that come with the linter. -/
def builtinRules : List RuleInfo := [
  { identifier := Naming.NamingRule.identifier
    displayName := Naming.NamingRule.displayName
    description := "Avoid get_/set_ prefixes for methods that take arguments" }]

end AccessorLint
