import AccessorLint.Files.Path
import AccessorLint.Settings.Rule
import AccessorLint.Value.Shown
import AccessorLint.Value.Whole
set_option autoImplicit false

/-!
Settings of a run, and the value in which a user writes them.

The user's value is laid over a value of defaults, so that a user says only what is different.  Lists are replaced as
a whole.
-/

namespace AccessorLint

/-- How files are processed. -/
structure Performance where
  parallel : Bool
  /-- The number of workers; zero leaves it to the program. -/
  maxWorkers : Int
  cacheMegabytes : Int
deriving DecidableEq, Repr

structure Settings where
  /-- Whether errors make the run fail. -/
  failOnError : Bool
  /-- The patterns of the files to check. -/
  included : List Text
  /-- The patterns of the files to leave out. -/
  excluded : List Text
  rules : List (Scalar × RuleSettings)
  performance : Performance
deriving Repr

/-- What is wrong with the settings that a user wrote. -/
inductive SettingsError where
  /-- The file cannot be opened. -/
  | unreadable (path : Text) (reason : Text)
  /-- The file holds no mapping. -/
  | notAMapping (path kind : Text)
  /-- A section is no mapping. -/
  | badSection (name : Text)
  /-- A list of patterns is none. -/
  | badPatterns (name : Text)
  /-- A pattern does not start from the project. -/
  | absolutePattern (name pattern : Text)
  /-- The settings of a rule are neither a mapping nor a truth value. -/
  | badRule (rule : Scalar)
  /-- A rule has a severity that is none. -/
  | badSeverity (rule : Scalar) (severity : Value)
  /-- The parameters of a rule are no mapping. -/
  | badParams (rule : Scalar)
deriving Repr

namespace SettingsError

/-- How a rule is called in messages. -/
def ruleName (rule : Scalar) : Text :=
  "python_rules." ++ rule.plain

def message : SettingsError → Text
  | unreadable path reason => "Failed to read config " ++ path ++ ": " ++ reason
  | notAMapping path kind => "Config " ++ path ++ " must be a mapping, got " ++ kind
  | badSection name => "'" ++ name ++ "' must be a mapping"
  | badPatterns name => "'" ++ name ++ "' must be a list of glob patterns"
  | absolutePattern name pattern =>
      "'" ++ name ++ "' patterns must be relative to the project root: " ++ pattern
  | badRule rule => ruleName rule ++ " must be a mapping or a boolean"
  | badSeverity rule severity =>
      ruleName rule ++ ".severity must be one of error, warning, note, got " ++ severity.shown
  | badParams rule => ruleName rule ++ ".params must be a mapping"

end SettingsError

/-- Why settings cannot be built. -/
inductive BuildError where
  | settings (error : SettingsError)
  /-- A number is none. -/
  | whole (error : WholeError)
deriving Repr

namespace Settings

/-- The value of a mapping with names for keys. -/
def record (entries : List (Text × Value)) : Value :=
  .mapping (entries.map fun (name, value) => (.text name, value))

def texts (items : List Text) : Value :=
  .list (items.map Value.text)

/-- The settings that hold where the user says nothing. -/
def defaults : Entries := [
  (.text "fail_on_error", .bool true),
  (.text "included", texts ["**/*.rb"]),
  (.text "excluded", texts ["vendor/**", "tmp/**", "node_modules/**", "db/schema.rb"]),
  (.text "python_rules", record [
    ("method_name_get_prefix", record [
      ("enabled", .bool true),
      ("severity", .text "warning"),
      ("params", record [("autocorrect", .bool true)])])]),
  (.text "performance", record [
    ("parallel", .bool true),
    ("max_workers", .int 0),
    ("file_cache_size_mb", .int 100)])]

/-! ### Parts -/

/-- The entries of a section.  A section that counts as false is empty. -/
def sectionOf (raw : Entries) (name : Text) : Except SettingsError Entries :=
  match raw.truthy? name with
  | none => .ok []
  | some (.mapping entries) => .ok entries
  | some _ => .error (.badSection name)

def patternOf? : Value → Option Text
  | .scalar (.text pattern) => if pattern.isEmpty then none else some pattern
  | _ => none

/-- The items of a list of patterns.  A text stands for the list of itself. -/
def patternItems : Value → Option (List Value)
  | .list items => some items
  | .scalar (.text pattern) => some [.text pattern]
  | _ => none

def patternsOf (raw : Entries) (name : Text) : Except SettingsError (List Text) :=
  match raw.truthy? name with
  | none => .ok []
  | some value =>
      match patternItems value >>= fun items => items.mapM patternOf? with
      | none => .error (.badPatterns name)
      | some patterns =>
          match patterns.find? fun pattern => (Path.ofText pattern).isAbsolute with
          | some pattern => .error (.absolutePattern name pattern)
          | none => .ok patterns

def severityNames : List Text := ["error", "warning", "note"]

def severityOf (rule : Scalar) (entries : Entries) : Except SettingsError (Option Text) :=
  match entries.find? "severity" with
  | none | some (.scalar .null) => .ok none
  | some (.scalar (.text name)) =>
      if severityNames.contains name then .ok (some name) else .error (.badSeverity rule (.text name))
  | some other => .error (.badSeverity rule other)

/-- Whether the value with a name counts as true; it does if it is missing. -/
def flagOf (entries : Entries) (name : Text) : Bool :=
  ((entries.find? name).map Value.isTruthy).getD true

/-- The parameters that a rule is given. -/
def paramsOf (rule : Scalar) (entries : Entries) : Except SettingsError Entries :=
  match entries.truthy? "params" with
  | none => .ok []
  | some (.mapping params) => .ok params
  | some _ => .error (.badParams rule)

/-- The settings of a rule: a mapping, or only whether it is enabled. -/
def ruleOf (rule : Scalar) : Value → Except SettingsError RuleSettings
  | .scalar (.bool enabled) => .ok { RuleSettings.default with enabled := enabled }
  | .mapping entries => do
      let severity ← severityOf rule entries
      let params ← paramsOf rule entries
      pure ⟨flagOf entries "enabled", severity, params⟩
  | _ => .error (.badRule rule)

def rulesOf (entries : Entries) : Except SettingsError (List (Scalar × RuleSettings)) :=
  entries.mapM fun (rule, value) => do
    let settings ← ruleOf rule value
    pure (rule, settings)

/-- A whole number of a section, or another if what stands there counts as false. -/
def numberOf (entries : Entries) (name : Text) (otherwise : Int) : Except WholeError Int :=
  match entries.truthy? name with
  | none => .ok otherwise
  | some value => value.whole

/-- The settings that a merged value gives. -/
def build (raw : Entries) : Except BuildError Settings := do
  let rules ← (sectionOf raw "python_rules").mapError .settings
  let performance ← (sectionOf raw "performance").mapError .settings
  let included ← (patternsOf raw "included").mapError .settings
  let excluded ← (patternsOf raw "excluded").mapError .settings
  let rules ← (rulesOf rules).mapError .settings
  let maxWorkers ← (numberOf performance "max_workers" 0).mapError .whole
  let cacheMegabytes ← (numberOf performance "file_cache_size_mb" 100).mapError .whole
  pure {
    failOnError := flagOf raw "fail_on_error"
    included := included
    excluded := excluded
    rules := rules
    performance := ⟨flagOf performance "parallel", maxWorkers, cacheMegabytes⟩ }

/-- The settings of a rule; those of a rule that the user says nothing about if there are none. -/
def rule (settings : List (Scalar × RuleSettings)) (identifier : Text) : RuleSettings :=
  ((settings.find? fun (rule, _) => rule.same (.text identifier)).map Prod.snd).getD RuleSettings.default

/-! ### As a record -/

def toRecord (settings : Settings) : Entries := [
  (.text "fail_on_error", .bool settings.failOnError),
  (.text "included", texts settings.included),
  (.text "excluded", texts settings.excluded),
  (.text "python_rules", .mapping (settings.rules.map fun (rule, own) => (rule, .mapping own.toRecord))),
  (.text "performance", record [
    ("parallel", .bool settings.performance.parallel),
    ("max_workers", .int settings.performance.maxWorkers),
    ("file_cache_size_mb", .int settings.performance.cacheMegabytes)])]

end Settings

end AccessorLint
