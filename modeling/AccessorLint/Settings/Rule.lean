import AccessorLint.Value.Basic
set_option autoImplicit false

/-!
Settings of one rule.
-/

namespace AccessorLint

structure RuleSettings where
  enabled : Bool
  /-- The name of a severity; the rule has one of its own if none is given. -/
  severity : Option Text
  params : Entries
deriving Repr

namespace RuleSettings

/-- The settings of a rule that the user says nothing about. -/
def default : RuleSettings :=
  ⟨true, none, []⟩

/-- The value of a parameter, unless it is missing or null. -/
def param? (settings : RuleSettings) (name : Text) : Option Value :=
  match settings.params.find? name with
  | some (.scalar .null) => none
  | other => other

def toRecord (settings : RuleSettings) : Entries := [
  (.text "enabled", .bool settings.enabled),
  (.text "severity", (settings.severity.map Value.text).getD .null),
  (.text "params", .mapping settings.params)]

end RuleSettings

end AccessorLint
