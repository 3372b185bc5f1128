import Mathlib
import AccessorLint.Proofs.Findings
import AccessorLint.Proofs.Pass
set_option autoImplicit false

/-!
Reports on files that are not UTF-8.

The rule that comes with the linter tells one violation for each method that it does not skip, in the order of the
file, as long as no stray byte stands on the lines of such a method.  One that does makes the rule fail, and a rule that
fails tells nothing about the whole file.
-/

namespace AccessorLint

open Naming (NamingRule)
open Source (Declaration)

variable {parallel : Bool} {root : Path} {settings : RuleSettings} {engine : Engine} {notices : List Notice}

namespace Naming.NamingRule

/-- The methods of a file that the rule does not skip. -/
def flagged (rule : NamingRule) (text path : Text) : List Declaration :=
  (Declaration.scan text path).filter fun declaration => rule.outcome declaration ≠ .skip

theorem mem_flagged {rule : NamingRule} {text path : Text} {declaration : Declaration} :
    declaration ∈ rule.flagged text path ↔
      declaration ∈ Declaration.scan text path ∧ rule.outcome declaration ≠ .skip := by
  rw [flagged, List.mem_filter, decide_eq_true_iff]

private theorem tells_of_results {rule : NamingRule} {lines : List Text} {declarations : List Declaration}
    {results : List (Option Violation)}
    (each : List.Forall₂ (fun declaration result => rule.violation? (some lines) declaration = .ok result)
      declarations results) :
    List.Forall₂ (fun declaration violation => (rule.findingOf declaration).Tells rule.profile lines violation)
      (declarations.filter fun declaration => rule.outcome declaration ≠ .skip)
      (results.filterMap fun violation => violation) := by
  induction each with
  | nil => exact .nil
  | @cons declaration result declarations results here _ ih =>
      rw [violation?_eq] at here
      by_cases skips : rule.outcome declaration = .skip
      · rw [if_pos skips] at here
        rw [List.filter_cons_of_neg (by simpa using skips), ← Except.ok.inj here]
        exact ih
      · rw [if_neg skips] at here
        cases made : (rule.findingOf declaration).violation rule.profile lines with
        | error error =>
            rw [made] at here
            cases here
        | ok violation =>
            rw [made] at here
            rw [List.filter_cons_of_pos (by simpa using skips), ← Except.ok.inj here]
            exact .cons (Finding.violation_tells made) ih

theorem check_all {rule : NamingRule} (text path : Text) :
    rule.check path text text.lines [] =
      ((Declaration.scan text path).mapM (rule.violation? (some text.lines))).map
        (List.filterMap fun violation => violation) := by
  have all : (Declaration.scan text path).filter (fun declaration => isSelected [] declaration.nameRange.line) =
      Declaration.scan text path := List.filter_eq_self.mpr fun _ _ => rfl
  unfold check
  dsimp only
  rw [all]
  rfl

/-- Without stray bytes on the lines of its methods the rule tells of all of them. -/
theorem check_clean {rule : NamingRule} {text path : Text}
    (clean : ∀ declaration ∈ rule.flagged text path, meetsStray text.lines declaration = false) :
    ∃ violations, rule.check path text text.lines [] = .ok violations ∧
      List.Forall₂ (fun declaration violation => (rule.findingOf declaration).Tells rule.profile text.lines violation)
        (rule.flagged text path) violations := by
  have each : ∀ declaration ∈ Declaration.scan text path,
      ∃ result, rule.violation? (some text.lines) declaration = .ok result := by
    intro declaration member
    rw [violation?_eq]
    by_cases skips : rule.outcome declaration = .skip
    · exact ⟨none, if_pos skips⟩
    · obtain ⟨violation, made⟩ := @findingOf_ok rule _ _ (clean declaration (mem_flagged.mpr ⟨member, skips⟩))
      exact ⟨some violation, by rw [if_neg skips, made]; rfl⟩
  obtain ⟨results, mapped, results₂⟩ := mapM_ok each
  refine ⟨results.filterMap fun violation => violation, ?_, tells_of_results results₂⟩
  rw [check_all, mapped]
  rfl

/-- With a stray byte on the lines of one of its methods the rule fails. -/
theorem check_stray {rule : NamingRule} {text path : Text} {declaration : Declaration}
    (member : declaration ∈ rule.flagged text path) (meets : meetsStray text.lines declaration = true) :
    ∃ error, rule.check path text text.lines [] = .error error := by
  obtain ⟨inScan, found⟩ := mem_flagged.mp member
  have fails : ∃ error, rule.violation? (some text.lines) declaration = .error error := by
    obtain ⟨error, failed⟩ := @findingOf_error rule _ _ meets
    exact ⟨error, by rw [violation?_eq, if_neg found, failed]; rfl⟩
  obtain ⟨error, failed⟩ := mapM_error inScan fails
  rw [check_all, failed]
  exact ⟨error, rfl⟩

theorem ofSettings_enabled {project : Option Path} {rule : NamingRule} (made : ofSettings settings project = .ok rule) :
    rule.enabled = settings.enabled := by
  unfold ofSettings at made
  obtain ⟨severity, -, made⟩ := bind_eq_ok made
  obtain ⟨patterns, -, made⟩ := bind_eq_ok made
  rw [← Except.ok.inj made]

end Naming.NamingRule

/-! ### Engines -/

theorem Engine.loadBuiltin_enabled
    (loaded : (Engine.empty parallel).loadBuiltin root settings = .ok (engine, notices))
    (enabled : settings.enabled = true) :
    ∃ rule, NamingRule.ofSettings settings (some root) = .ok rule ∧ engine.rules = [.naming rule] := by
  simp only [Engine.loadBuiltin, enabled, if_true] at loaded
  obtain ⟨rule, made, finish⟩ := bind_eq_ok loaded
  refine ⟨rule, made, ?_⟩
  have same : (Engine.empty parallel).add (.naming rule) = engine := congrArg Prod.fst (Except.ok.inj finish)
  rw [← same]
  rfl

theorem check_singleton (rule : Rule) (file : SourceFile) (selected : List Int) :
    check [rule] file selected = rule.run file selected := by
  simp [check]

theorem Rule.run_naming_ok {rule : NamingRule} {file : SourceFile} {selected : List Int} {violations : List Violation}
    (enabled : rule.enabled = true)
    (checked : rule.check file.path file.content file.lines selected = .ok violations) :
    (Rule.naming rule).run file selected = ⟨violations, []⟩ := by
  simp only [Rule.run, Rule.naming, enabled, checked]
  rfl

theorem Rule.run_naming_error {rule : NamingRule} {file : SourceFile} {selected : List Int} {error : FindingError}
    (enabled : rule.enabled = true)
    (checked : rule.check file.path file.content file.lines selected = .error error) :
    (Rule.naming rule).run file selected =
      ⟨[], [.warning ("Rule " ++ NamingRule.identifier ++ " failed on " ++ file.path ++ ": " ++ error.message)]⟩ := by
  simp only [Rule.run, Rule.naming, enabled, checked]
  rfl

section

variable {rule : NamingRule} {text path : Text}

theorem check_of_clean (enabled : rule.enabled = true)
    (clean : ∀ declaration ∈ rule.flagged text path, NamingRule.meetsStray text.lines declaration = false) :
    List.Forall₂ (fun declaration violation => (rule.findingOf declaration).Tells rule.profile text.lines violation)
        (rule.flagged text path) (check [.naming rule] (.ofContent path text) []).violations ∧
      (check [.naming rule] (.ofContent path text) []).notices = [] := by
  obtain ⟨violations, checked, told⟩ := NamingRule.check_clean clean
  rw [check_singleton, @Rule.run_naming_ok rule (.ofContent path text) [] violations enabled checked]
  exact ⟨told, rfl⟩

theorem check_of_stray (enabled : rule.enabled = true)
    (strays : ∃ declaration ∈ rule.flagged text path, NamingRule.meetsStray text.lines declaration = true) :
    (check [.naming rule] (.ofContent path text) []).violations = [] ∧
      ∃ reason, (check [.naming rule] (.ofContent path text) []).notices =
        [.warning ("Rule " ++ NamingRule.identifier ++ " failed on " ++ path ++ ": " ++ reason)] := by
  obtain ⟨declaration, member, meets⟩ := strays
  obtain ⟨error, failed⟩ := NamingRule.check_stray member meets
  rw [check_singleton, @Rule.run_naming_error rule (.ofContent path text) [] error enabled failed]
  exact ⟨rfl, error.message, rfl⟩

end

/-- What the linter tells about a file of any bytes.  Where no stray byte stands on the lines of a method that the rule
does not skip, it tells one violation for each such method, in their order, and nothing else; otherwise it tells only
that the rule failed. -/
theorem one_report_per_method_without_strays
    (loaded : (Engine.empty parallel).loadBuiltin root settings = .ok (engine, notices))
    (enabled : settings.enabled = true) (bytes : Text.Bytes) (path : Text) :
    ∃ rule, NamingRule.ofSettings settings (some root) = .ok rule ∧
      let text := Text.decode bytes
      let checked := check engine.rules (.ofContent path text) []
      ((∀ declaration ∈ rule.flagged text path, NamingRule.meetsStray text.lines declaration = false) →
        List.Forall₂ (fun declaration violation => (rule.findingOf declaration).Tells rule.profile text.lines violation)
          (rule.flagged text path) checked.violations ∧ checked.notices = []) ∧
      ((∃ declaration ∈ rule.flagged text path, NamingRule.meetsStray text.lines declaration = true) →
        checked.violations = [] ∧ ∃ reason, checked.notices =
          [.warning ("Rule " ++ NamingRule.identifier ++ " failed on " ++ path ++ ": " ++ reason)]) := by
  obtain ⟨rule, made, rules⟩ := Engine.loadBuiltin_enabled loaded enabled
  have ruleEnabled := (NamingRule.ofSettings_enabled made).trans enabled
  refine ⟨rule, made, ?_⟩
  dsimp only
  rw [rules]
  exact ⟨check_of_clean ruleEnabled, check_of_stray ruleEnabled⟩

/-- A stray byte above a method does not matter to its violation. -/
theorem stray_byte_above_method_harmless :
    ∃ (engine : Engine) (notices : List Notice) (bytes : Text.Bytes),
      bytes = Text.encode "# " ++ 0xFF :: Text.encode "\ndef get_a(x)\nend\n" ∧
        (Engine.empty true).loadBuiltin (.ofText "/srv/shop") .default = .ok (engine, notices) ∧
        Text.hasStray (Text.decode bytes) = true ∧
        (check engine.rules (.ofContent "a.rb" (Text.decode bytes)) []).violations.length = 1 := by
  obtain ⟨engine, notices, loaded⟩ : ∃ engine notices,
      (Engine.empty true).loadBuiltin (.ofText "/srv/shop") .default = .ok (engine, notices) := ⟨_, _, rfl⟩
  refine ⟨engine, notices, _, rfl, loaded, by decide +kernel, ?_⟩
  obtain ⟨rule, made, clean, -⟩ := one_report_per_method_without_strays loaded rfl
    (Text.encode "# " ++ 0xFF :: Text.encode "\ndef get_a(x)\nend\n") "a.rb"
  cases made
  rw [← (clean (by decide +kernel)).1.length_eq]
  decide +kernel

/-- A stray byte on the lines of a method hides the violations of all methods of the file. -/
theorem stray_byte_hides_other_methods :
    ∃ (engine : Engine) (notices : List Notice) (rule : NamingRule) (bytes : Text.Bytes),
      bytes = Text.encode "def get_a(x)\nend\ndef get_b(y) # " ++ 0xFF :: Text.encode "\nend\n" ∧
        (Engine.empty true).loadBuiltin (.ofText "/srv/shop") .default = .ok (engine, notices) ∧
        NamingRule.ofSettings .default (some (.ofText "/srv/shop")) = .ok rule ∧
        (rule.flagged (Text.decode bytes) "a.rb").map Declaration.name = ["get_a", "get_b"] ∧
        (check engine.rules (.ofContent "a.rb" (Text.decode bytes)) []).violations = [] := by
  let bytes : Text.Bytes := Text.encode "def get_a(x)\nend\ndef get_b(y) # " ++ 0xFF :: Text.encode "\nend\n"
  obtain ⟨engine, notices, loaded⟩ : ∃ engine notices,
      (Engine.empty true).loadBuiltin (.ofText "/srv/shop") .default = .ok (engine, notices) := ⟨_, _, rfl⟩
  let rule : NamingRule := ⟨true, .warning, .default, true, some (.ofText "/srv/shop")⟩
  have made : NamingRule.ofSettings .default (some (.ofText "/srv/shop")) = .ok rule := rfl
  have strays : ∃ declaration ∈ rule.flagged (Text.decode bytes) "a.rb",
      NamingRule.meetsStray (Text.decode bytes).lines declaration = true := by decide +kernel
  obtain ⟨other, otherMade, rules⟩ := Engine.loadBuiltin_enabled loaded rfl
  have same : other = rule := Except.ok.inj (otherMade.symm.trans made)
  refine ⟨engine, notices, rule, bytes, rfl, loaded, made, by decide +kernel, ?_⟩
  rw [rules, same]
  exact (check_of_stray rfl strays).1

end AccessorLint
