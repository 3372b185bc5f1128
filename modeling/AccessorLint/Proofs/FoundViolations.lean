import Mathlib
import AccessorLint.Proofs.CorrectedFile
import AccessorLint.Proofs.Records
set_option autoImplicit false

/-!
Violations that work on files finds.

Each of them comes from a check of one of the files, whatever is done with the files and however the work on them is
interleaved.  Those of the rule that comes with the linter have an identity unless the path of the file has a stray
byte, as neither the rule nor the digest of a context brings one in.
-/

namespace AccessorLint

open Naming (NamingRule)
open Source (Declaration)

/-! ### From checks -/

/-- The violations that the work on a file has found so far. -/
def Stage.violations : Stage → List Violation
  | written found => found.violations
  | stage => stage.found.violations

namespace Engine

variable {engine : Engine} {describes : Violation → Prop}

theorem advance_violations (job : Job) {path : Text} {workspace : Workspace} {stage : Stage}
    (checked : ∀ content selected,
      ∀ violation ∈ (check engine.rules (.ofContent path content) selected).violations, describes violation)
    (held : ∀ violation ∈ stage.violations, describes violation) :
    ∀ violation ∈ (engine.advance job path workspace stage).result.violations, describes violation := by
  cases stage with
  | waiting =>
      rw [advance]
      split
      · exact held
      · exact held
  | seen node =>
      rw [advance]
      split
      · exact held
      · exact held
  | holding content =>
      cases job with
      | check selected => exact checked content (selected path)
      | correct =>
          have remaining : (correct engine.rules path content).remaining =
              (check engine.rules (.ofContent path (correct engine.rules path content).content) []).violations :=
            correctFrom_remaining engine.rules path maxPasses 0 content
          have left : ∀ violation ∈ (correct engine.rules path content).remaining, describes violation := by
            rw [remaining]
            exact checked _ []
          rw [advance, proceed]
          split
          · exact left
          · split
            · exact held
            · exact left
  | written found => exact held
  | finished result => exact held

/-- Whether the work on some files has found only violations of a kind. -/
def FindsOnly (describes : Violation → Prop) (files : List Text) (done : Together) : Prop :=
  ∀ file ∈ done.result, file.1 ∈ files ∧ ∀ violation ∈ file.2.violations, describes violation

theorem turn_findsOnly {files : List Text}
    (checked : ∀ path ∈ files, ∀ content selected,
      ∀ violation ∈ (check engine.rules (.ofContent path content) selected).violations, describes violation)
    (job : Job) {done : Together} (held : FindsOnly describes files done) (index : Nat) :
    FindsOnly describes files (engine.turn job done index) := by
  rw [turn]
  split
  · exact held
  · rename_i path stage found
    have here := held _ (List.mem_of_getElem? found)
    intro file member
    rcases List.mem_or_eq_of_mem_set member with old | rfl
    · exact held file old
    · exact ⟨here.1, advance_violations job (checked path here.1) here.2⟩

/-- What holds of all violations that checks of some files find holds of all that any work on the files finds. -/
theorem runAll_violations {files : List Text}
    (checked : ∀ path ∈ files, ∀ content selected,
      ∀ violation ∈ (check engine.rules (.ofContent path content) selected).violations, describes violation)
    (job : Job) (schedule : List Nat) (workspace : Workspace) :
    ∀ violation ∈ (foundIn (engine.runAll job schedule workspace files).result).violations, describes violation := by
  have start : FindsOnly describes files ⟨files.map fun path => (path, .waiting), workspace, []⟩ := by
    intro file member
    obtain ⟨path, isFile, rfl⟩ := List.mem_map.mp member
    exact ⟨isFile, fun violation absent => (nomatch absent)⟩
  have all : FindsOnly describes files (engine.runAll job schedule workspace files) :=
    List.foldlRecOn _ (engine.turn job) start fun _ held index _ => turn_findsOnly checked job held index
  intro violation member
  obtain ⟨⟨path, stage⟩, isFile, found⟩ := List.mem_flatMap.mp member
  apply (all _ isFile).2
  cases stage with
  | written findings => cases found
  | waiting => cases found
  | seen node => cases found
  | holding content => cases found
  | finished result => exact found

end Engine

/-! ### Of the rule that comes with the linter -/

namespace Text

theorem hasStray_hex (bytes : Bytes) : hasStray (Digest.hex bytes) = false := by
  induction bytes with
  | nil => rfl
  | cons byte others ih => exact ih

theorem hasStray_digest {text digits : Text} (digested : digest text = .ok digits) : digits.hasStray = false := by
  unfold digest at digested
  obtain ⟨bytes, -, finish⟩ := bind_eq_ok digested
  rw [← Except.ok.inj finish, hasStray, List.any_eq_false]
  intro symbol member
  exact List.any_eq_false.mp (hasStray_hex _) symbol (List.mem_of_mem_take member)

end Text

/-- A violation that the rule makes of a method has an identity exactly if the path of its file has no stray byte. -/
theorem Finding.Tells.isEncodable_iff {rule : NamingRule} {declaration : Declaration} {lines : List Text}
    {violation : Violation} (tells : (rule.findingOf declaration).Tells rule.profile lines violation) :
    violation.IsEncodable ↔ violation.filePath.hasStray = false := by
  refine ⟨fun encodable => encodable.filePath, fun clean => ⟨clean, ?_, ?_, ?_⟩⟩
  · rw [tells.ruleId]
    rfl
  · intro text isText
    rw [tells.subType] at isText
    cases isText
    change (rule.outcome declaration).name.hasStray = false
    cases rule.outcome declaration <;> rfl
  · intro text isText
    rw [← tells.codeHash] at isText
    exact Text.hasStray_digest (eq_ok_of_toOption isText)

theorem Naming.NamingRule.tells_of_mem_check {rule : NamingRule} {path content : Text} {lines : List Text}
    {selected : List Int} {violations : List Violation}
    (checked : rule.check path content lines selected = .ok violations) {violation : Violation}
    (member : violation ∈ violations) :
    ∃ declaration, (rule.findingOf declaration).Tells rule.profile lines violation := by
  unfold NamingRule.check at checked
  obtain ⟨results, mapped, finish⟩ := bind_eq_ok checked
  rw [← Except.ok.inj finish] at member
  obtain ⟨result, inResults, isViolation⟩ := List.mem_filterMap.mp member
  subst isViolation
  obtain ⟨declaration, -, made⟩ := exists_of_mem_right (mapM_eq_ok_iff.mp mapped) inResults
  rw [violation?_eq] at made
  split at made
  · cases made
  · cases found : (rule.findingOf declaration).violation rule.profile lines with
    | error error =>
        rw [found] at made
        cases made
    | ok other =>
        rw [found] at made
        cases made
        exact ⟨declaration, Finding.violation_tells found⟩

/-- A violation that rules loaded once find has an identity exactly if the path of its file has no stray byte. -/
theorem isEncodable_iff_of_check {parallel : Bool} {root : Path} {settings : RuleSettings} {engine : Engine}
    {notices : List Notice} (loaded : (Engine.empty parallel).loadBuiltin root settings = .ok (engine, notices))
    {file : SourceFile} {selected : List Int} {violation : Violation}
    (member : violation ∈ (check engine.rules file selected).violations) :
    violation.IsEncodable ↔ violation.filePath.hasStray = false := by
  rcases Engine.loadBuiltin_rules loaded with noRules | ⟨rule, -, oneRule⟩
  · rw [noRules] at member
    cases member
  · rw [oneRule] at member
    change violation ∈ (Rule.naming rule |>.run file selected).violations ++ [] at member
    rw [List.append_nil, Rule.run] at member
    split at member
    · cases member
    · split at member
      · rename_i violations checked
        obtain ⟨declaration, tells⟩ := NamingRule.tells_of_mem_check (mapError_eq_ok_iff.mp checked) member
        exact tells.isEncodable_iff
      · cases member

end AccessorLint
