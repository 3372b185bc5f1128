import Mathlib
import AccessorLint.Proofs.Lists
import AccessorLint.Proofs.Numerals
import AccessorLint.Settings.Loading
set_option autoImplicit false

/-!
What comes of the settings that a user writes.

What each part of the settings means is told by a relation between the value that stands there and what is read.  A
value that has the right form in all its parts gives settings that a run can use, and one that has not is refused with
an error about the settings.  There are two exceptions.  Keys on the top level that have no order make loading fail,
though nothing is wrong with them, and what stands for a number in the section about performance is not checked to be
one.
-/

namespace AccessorLint

/-! ### What a value can be read as -/

namespace Settings

/-- Whether a text is a pattern of files of the project: it is not empty and does not start from a root. -/
def IsPattern (pattern : Text) : Prop :=
  ∃ first rest, pattern = first :: rest ∧ first ≠ Path.slash

/-- The patterns of a value: a list of texts, or one text. -/
inductive ListsPatterns : Value → List Text → Prop where
  | one (pattern : Text) : ListsPatterns (.text pattern) [pattern]
  | many (patterns : List Text) : ListsPatterns (.list (patterns.map Value.text)) patterns

/-- The entries of a section: those of the mapping that stands there.  What counts as false stands for none. -/
inductive HasSection (raw : Entries) (name : Text) : Entries → Prop where
  | missing (absent : raw.truthy? name = none) : HasSection raw name []
  | given {entries : Entries} (present : raw.truthy? name = some (.mapping entries)) : HasSection raw name entries

/-- The patterns with a name.  What counts as false stands for none. -/
inductive HasPatterns (raw : Entries) (name : Text) : List Text → Prop where
  | missing (absent : raw.truthy? name = none) : HasPatterns raw name []
  | given {value : Value} {patterns : List Text} (present : raw.truthy? name = some value)
      (lists : ListsPatterns value patterns) (usable : ∀ pattern ∈ patterns, IsPattern pattern) :
      HasPatterns raw name patterns

inductive HasSeverity (entries : Entries) : Option Text → Prop where
  | missing (absent : entries.find? "severity" = none) : HasSeverity entries none
  | null (present : entries.find? "severity" = some .null) : HasSeverity entries none
  | named {name : Text} (present : entries.find? "severity" = some (.text name))
      (isName : name = "error" ∨ name = "warning" ∨ name = "note") : HasSeverity entries (some name)

/-- The settings of a rule: a truth value only says whether it is enabled. -/
inductive DescribesRule : Value → RuleSettings → Prop where
  | switch (enabled : Bool) : DescribesRule (.bool enabled) ⟨enabled, none, []⟩
  | mapping {entries params : Entries} {severity : Option Text} (hasSeverity : HasSeverity entries severity)
      (hasParams : HasSection entries "params" params) :
      DescribesRule (.mapping entries) ⟨flagOf entries "enabled", severity, params⟩

/-- Whether settings say what a merged value says.  The numbers in the section about performance are left open. -/
structure Describes (raw performance : Entries) (settings : Settings) : Prop where
  failOnError : settings.failOnError = flagOf raw "fail_on_error"
  included : HasPatterns raw "included" settings.included
  excluded : HasPatterns raw "excluded" settings.excluded
  rules : ∃ entries, HasSection raw "python_rules" entries ∧
    List.Forall₂ (fun entry rule => entry.1 = rule.1 ∧ DescribesRule entry.2 rule.2) entries settings.rules
  hasPerformance : HasSection raw "performance" performance
  parallel : settings.performance.parallel = flagOf performance "parallel"

/-- Whether a run can use settings.  The parameters of a rule are a mapping by their type. -/
structure Valid (settings : Settings) : Prop where
  included : ∀ pattern ∈ settings.included, IsPattern pattern
  excluded : ∀ pattern ∈ settings.excluded, IsPattern pattern
  severities : ∀ rule ∈ settings.rules, ∀ severity, rule.2.severity = some severity →
    severity = "error" ∨ severity = "warning" ∨ severity = "note"

theorem HasPatterns.usable {raw : Entries} {name : Text} {patterns : List Text}
    (hasPatterns : HasPatterns raw name patterns) : ∀ pattern ∈ patterns, IsPattern pattern := by
  cases hasPatterns with
  | missing absent => exact fun _ impossible => absurd impossible List.not_mem_nil
  | given present lists usable => exact usable

theorem DescribesRule.severity {value : Value} {rule : RuleSettings} (describes : DescribesRule value rule)
    {severity : Text} (given : rule.severity = some severity) :
    severity = "error" ∨ severity = "warning" ∨ severity = "note" := by
  cases describes with
  | switch enabled => cases given
  | mapping hasSeverity hasParams =>
      cases hasSeverity with
      | missing absent => cases given
      | null present => cases given
      | named present isName => exact Option.some.inj given ▸ isName

theorem Describes.valid {raw performance : Entries} {settings : Settings}
    (describes : Describes raw performance settings) : settings.Valid where
  included := describes.included.usable
  excluded := describes.excluded.usable
  severities := by
    intro rule isRule severity given
    obtain ⟨entries, -, each⟩ := describes.rules
    obtain ⟨index, inside, rfl⟩ := List.getElem_of_mem isRule
    have described := (List.forall₂_iff_get.mp each).2 index (each.length_eq ▸ inside) inside
    exact described.2.severity given

end Settings

namespace Settings

end Settings

end AccessorLint
