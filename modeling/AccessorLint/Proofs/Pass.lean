import Mathlib
import AccessorLint.Lint.Engine
import AccessorLint.Proofs.Definitions
import AccessorLint.Proofs.Lists
import AccessorLint.Proofs.Renaming
set_option autoImplicit false

/-!
One pass of correction with the rule that comes with the linter.

The violations of a pass that can be corrected belong to method definitions, in order.  Their corrections rename
accessors at places that lie apart, so all of them are accepted, and the pass is as many renamings.
-/

namespace AccessorLint

open Naming (NamingRule Renaming Site Renamed canRename suggestions renamed_process)
open Source (Declaration Definition blank lineStarts)

variable {parallel : Bool} {root : Path} {settings : RuleSettings} {engine : Engine} {notices : List Notice}

/-! ### Rules -/

/-- An engine loaded once has no rule, or the naming rule of its settings. -/
theorem Engine.loadBuiltin_rules
    (loaded : (Engine.empty parallel).loadBuiltin root settings = .ok (engine, notices)) :
    engine.rules = [] ∨
      ∃ rule, NamingRule.ofSettings settings (some root) = .ok rule ∧ engine.rules = [.naming rule] := by
  simp only [Engine.loadBuiltin] at loaded
  split at loaded
  · obtain ⟨rule, made, finish⟩ := bind_eq_ok loaded
    right
    refine ⟨rule, made, ?_⟩
    have same : (Engine.empty parallel).add (.naming rule) = engine := congrArg Prod.fst (Except.ok.inj finish)
    rw [← same]
    rfl
  · left
    have same : Engine.empty parallel = engine := congrArg Prod.fst (Except.ok.inj loaded)
    rw [← same]
    rfl

/-! ### Violations -/

/-- What a violation takes over from a finding. -/
theorem Finding.violation_takes {finding : Finding} {profile : RuleProfile} {lines : List Text} {violation : Violation}
    (made : finding.violation profile lines = .ok violation) :
    violation.line = finding.line ∧ violation.column = finding.column ∧
      violation.subType = some finding.kind.subType ∧ violation.correction = finding.correction := by
  simp only [Finding.violation] at made
  obtain ⟨message, -, hashed⟩ := bind_eq_ok made
  obtain ⟨hash, -, finish⟩ := bind_eq_ok hashed
  rw [← Except.ok.inj finish]
  exact ⟨rfl, rfl, rfl, rfl⟩

/-- A violation that can be corrected, by the method definition to which it belongs and the new name. -/
structure Corrects (rule : NamingRule) (flagged : Declaration × Text) (violation : Violation) : Prop where
  line : violation.line = flagged.1.nameRange.line
  column : violation.column = flagged.1.nameRange.column
  subType : violation.subType = some (rule.outcome flagged.1).name
  corrects : rule.corrects = true
  renamable : canRename flagged.1.name = true
  newName : (suggestions flagged.1.name (rule.outcome flagged.1)).head? = some flagged.2
  correction : violation.correction = some [NamingRule.nameEdit flagged.1 flagged.2]

/-- The violation of a definition can be corrected only by renaming the definition. -/
theorem corrects_of_isCorrectable {rule : NamingRule} {lines : Option (List Text)} {declaration : Declaration}
    {violation : Violation} (found : rule.violation? lines declaration = .ok (some violation))
    (correctable : violation.isCorrectable = true) :
    ∃ newName, Corrects rule (declaration, newName) violation := by
  simp only [NamingRule.violation?, NamingRule.finding?] at found
  split at found
  · cases found
  · rename_i finding made
    split at made
    · cases made
    · cases made
      cases violated : Finding.violation rule.profile (lines.getD []) _ with
      | error error =>
          rw [violated] at found
          cases found
      | ok made =>
          rw [violated] at found
          cases found
          obtain ⟨line, column, subType, correction⟩ := Finding.violation_takes violated
          rw [Violation.isCorrectable] at correctable
          by_cases allowed : (rule.corrects && canRename declaration.name) = true
          · obtain ⟨corrects, renamable⟩ := Bool.and_eq_true_iff.mp allowed
            simp only [NamingRule.correction, allowed, if_true] at correction
            rw [correction, Option.isSome_map, Option.isSome_iff_exists] at correctable
            obtain ⟨newName, newNameEq⟩ := correctable
            rw [newNameEq] at correction
            exact ⟨newName, line, column, subType, corrects, renamable, newNameEq, correction⟩
          · simp only [NamingRule.correction, allowed, if_false, Bool.false_eq_true] at correction
            rw [correction] at correctable
            cases correctable

/-- The violations of a text that can be corrected belong to some of its definitions, in order. -/
theorem check_corrects {rule : NamingRule} {path text : Text} {lines : List Text} {violations : List Violation}
    (checked : rule.check path text lines [] = .ok violations) :
    ∃ flagged : List (Declaration × Text), (flagged.map Prod.fst).Sublist (Declaration.scan text path) ∧
      List.Forall₂ (Corrects rule) flagged (violations.filter Violation.isCorrectable) := by
  simp only [NamingRule.check] at checked
  obtain ⟨found, mapped, finish⟩ := bind_eq_ok checked
  rw [← Except.ok.inj finish]
  have all : (Declaration.scan text path).filter (fun declaration =>
      NamingRule.isSelected [] declaration.nameRange.line) = Declaration.scan text path :=
    List.filter_eq_self.mpr fun _ _ => rfl
  rw [all] at mapped
  clear checked finish all
  generalize Declaration.scan text path = declarations at mapped ⊢
  induction declarations generalizing found with
  | nil =>
      cases mapped
      exact ⟨[], List.Sublist.slnil, .nil⟩
  | cons declaration rest ih =>
      rw [List.mapM_cons] at mapped
      obtain ⟨first, firstFound, mapped⟩ := bind_eq_ok mapped
      obtain ⟨others, othersFound, finish⟩ := bind_eq_ok mapped
      rw [← Except.ok.inj finish]
      obtain ⟨flagged, sublist, corrects⟩ := ih others othersFound
      cases first with
      | none => exact ⟨flagged, sublist.cons _, corrects⟩
      | some violation =>
          change ∃ flagged : List (Declaration × Text), _ ∧ List.Forall₂ (Corrects rule) flagged
            ((violation :: others.filterMap fun violation => violation).filter Violation.isCorrectable)
          by_cases correctable : violation.isCorrectable = true
          · obtain ⟨newName, here⟩ := corrects_of_isCorrectable firstFound correctable
            rw [List.filter_cons_of_pos correctable]
            exact ⟨(declaration, newName) :: flagged, sublist.cons_cons _, .cons here corrects⟩
          · rw [List.filter_cons_of_neg correctable]
            exact ⟨flagged, sublist.cons _, corrects⟩

/-- The violations of a text that can be corrected. -/
def correctable (rules : List Rule) (path text : Text) : List Violation :=
  (check rules (.ofContent path text) []).violations.filter Violation.isCorrectable

/-- What a pass registers for a text. -/
def pass (rules : List Rule) (path text : Text) : Registered :=
  registerAll text (correctable rules path text)

/-- A rule that is not loaded or fails finds nothing.  Otherwise the violations are those of the naming rule. -/
theorem Engine.correctable_cases
    (loaded : (Engine.empty parallel).loadBuiltin root settings = .ok (engine, notices))
    (path text : Text) :
    correctable engine.rules path text = [] ∨
      ∃ rule violations, NamingRule.ofSettings settings (some root) = .ok rule ∧
        rule.check path text text.lines [] = .ok violations ∧
        correctable engine.rules path text = violations.filter Violation.isCorrectable := by
  rcases Engine.loadBuiltin_rules loaded with none | ⟨rule, made, single⟩
  · rw [none]
    exact Or.inl rfl
  · rw [single]
    simp only [correctable, check, List.map_singleton, List.flatMap_singleton, Rule.run]
    split
    · exact Or.inl rfl
    · split
      · rename_i violations checked
        have inner : rule.check path text text.lines [] = .ok violations := by
          cases result : rule.check path text text.lines [] with
          | error error =>
              simp only [Rule.naming, SourceFile.ofContent, result] at checked
              cases checked
          | ok found =>
              simp only [Rule.naming, SourceFile.ofContent, result] at checked
              exact congrArg Except.ok (Except.ok.inj checked)
        exact Or.inr ⟨rule, violations, made, inner, rfl⟩
      · exact Or.inl rfl

theorem Engine.correctable_corrects
    (loaded : (Engine.empty parallel).loadBuiltin root settings = .ok (engine, notices))
    (path text : Text) :
    ∃ flagged : List (Declaration × Text), (flagged.map Prod.fst).Sublist (Declaration.scan text path) ∧
      List.Forall₂ (fun named violation => ∃ rule, NamingRule.ofSettings settings (some root) = .ok rule ∧
          Corrects rule named violation) flagged (correctable engine.rules path text) := by
  rcases Engine.correctable_cases loaded path text with nothing | ⟨rule, violations, made, checked, found⟩
  · rw [nothing]
    exact ⟨[], List.nil_sublist _, .nil⟩
  · obtain ⟨flagged, sublist, corrects⟩ := check_corrects checked
    rw [found]
    exact ⟨flagged, sublist, corrects.imp fun _ _ here => ⟨rule, made, here⟩⟩

/-! ### Places -/

/-- A definition that is renamed stands at a place of the text. -/
theorem site_of_mem_scan {text path newName : Text} {declaration : Declaration}
    (member : declaration ∈ Declaration.scan text path) (renames : Renaming declaration.name newName)
    (renamable : canRename declaration.name = true) :
    ∃ left right, Site text (NamingRule.nameEdit declaration newName) left declaration.name right := by
  obtain ⟨definition, inCode, rfl⟩ := List.mem_map.mp member
  obtain ⟨left, lead, rest, stands⟩ := Definition.exists_stands inCode
  have identifier := renames.identifier renamable stands.named
  obtain ⟨before, after, scan, textEq, size, stops, -⟩ := stands.in_text identifier
  obtain ⟨others, last, leadEq, isLast⟩ := stands.isLead.last
  refine ⟨before ++ lead, after, ?_, ?_, ?_, renames, identifier, ?_, stops⟩
  · rw [List.append_assoc]
    exact textEq
  · change (definition.header.nameBegin : Int) = _
    rw [stands.nameBegin, List.length_append, List.length_append, List.length_append, size]
    change ((left.length + (3 + lead.length) : Nat) : Int) = _
    omega
  · change (definition.header.nameEnd : Int) = _ + (definition.header.name.length : Int)
    rw [stands.nameEnd, List.length_append, List.length_append, List.length_append, List.length_append, size]
    change ((left.length + (3 + (lead.length + _)) : Nat) : Int) = _
    omega
  · intro symbol isSymbol
    rw [leadEq, ← List.append_assoc, List.getLast?_concat] at isSymbol
    cases isSymbol
    rcases isLast with gap | rfl
    · exact Source.isWord_of_isGap gap
    · decide

/-- A definition that is renamed ends its name before the next definition starts. -/
theorem scan_apart (text path : Text) :
    (Declaration.scan text path).Pairwise fun first second =>
      (∃ newName, Renaming first.name newName) → canRename first.name = true →
        first.nameRange.stop < second.nameRange.start := by
  refine List.pairwise_map.mpr ((Definition.all_pairwise (blank text)).imp_of_mem ?_)
  rintro first second inFirst inSecond order ⟨newName, renames⟩ renamable
  obtain ⟨left, lead, rest, stands⟩ := Definition.exists_stands inFirst
  exact Nat.lt_of_le_of_lt (stands.nameEnd_le (renames.ordinary renamable stands.named) inSecond order)
    (Definition.start_lt_nameBegin inSecond)

/-! ### The pass -/

/-- The edits that rename the flagged definitions. -/
def renamingEdits (flagged : List (Declaration × Text)) : List Edit :=
  flagged.map fun named => NamingRule.nameEdit named.1 named.2

/-- What the definitions that a pass corrects have in common. -/
structure Flagged (text path : Text) (flagged : List (Declaration × Text)) : Prop where
  sublist : (flagged.map Prod.fst).Sublist (Declaration.scan text path)
  renames : ∀ named ∈ flagged, Renaming named.1.name named.2
  renamable : ∀ named ∈ flagged, canRename named.1.name = true

theorem Flagged.site {text path : Text} {flagged : List (Declaration × Text)} (isFlagged : Flagged text path flagged)
    {named : Declaration × Text} (member : named ∈ flagged) :
    ∃ left right, Site text (NamingRule.nameEdit named.1 named.2) left named.1.name right :=
  site_of_mem_scan (isFlagged.sublist.subset (List.mem_map_of_mem member)) (isFlagged.renames named member)
    (isFlagged.renamable named member)

theorem Flagged.ascending {text path : Text} {flagged : List (Declaration × Text)}
    (isFlagged : Flagged text path flagged) : Ascending text.length (renamingEdits flagged) := by
  constructor
  · intro edit member
    obtain ⟨named, inFlagged, rfl⟩ := List.mem_map.mp member
    obtain ⟨left, right, site⟩ := isFlagged.site inFlagged
    have positive := List.length_pos_iff.mpr site.identifier.ne_nil
    have size := congrArg List.length site.textEq
    rw [List.length_append, List.length_append] at size
    rw [site.start, site.stop]
    omega
  · have apart := List.pairwise_map.mp ((scan_apart text path).sublist isFlagged.sublist)
    refine List.pairwise_map.mpr (apart.imp_of_mem ?_)
    intro first second inFirst _ order
    have before := order ⟨_, isFlagged.renames first inFirst⟩ (isFlagged.renamable first inFirst)
    change (first.1.nameRange.stop : Int) < second.1.nameRange.start
    omega

theorem Flagged.renamed {text path : Text} {flagged : List (Declaration × Text)}
    (isFlagged : Flagged text path flagged) :
    Renamed flagged.length text (EditBuffer.process ⟨text, renamingEdits flagged⟩) := by
  have renamed := renamed_process isFlagged.ascending (by
    intro edit member
    obtain ⟨named, inFlagged, rfl⟩ := List.mem_map.mp member
    obtain ⟨left, right, site⟩ := isFlagged.site inFlagged
    exact ⟨left, named.1.name, right, site⟩)
  rwa [renamingEdits, List.length_map] at renamed

/-- The corrections of violations rename the definitions to which they belong. -/
theorem corrections_of_corrects {flagged : List (Declaration × Text)} {correctable : List Violation}
    (corrects : List.Forall₂ (fun named violation => ∃ rule, Corrects rule named violation) flagged correctable) :
    (∀ named ∈ flagged, Renaming named.1.name named.2 ∧ canRename named.1.name = true) ∧
      correctable.map Violation.correction = (renamingEdits flagged).map fun edit => some [edit] := by
  induction corrects with
  | nil => exact ⟨fun named member => (List.not_mem_nil member).elim, rfl⟩
  | @cons named violation flagged correctable here _ ih =>
      obtain ⟨rule, here⟩ := here
      constructor
      · intro other member
        rcases List.mem_cons.mp member with rfl | later
        · exact ⟨Naming.renaming_of_suggestion here.newName, here.renamable⟩
        · exact ih.1 other later
      · rw [List.map_cons, here.correction, ih.2]
        rfl

/-- A pass corrects all violations that can be corrected, by renaming the definitions to which they belong. -/
theorem Engine.pass_flagged
    (loaded : (Engine.empty parallel).loadBuiltin root settings = .ok (engine, notices))
    (path text : Text) :
    ∃ flagged : List (Declaration × Text), Flagged text path flagged ∧
      List.Forall₂ (fun named violation => ∃ rule, NamingRule.ofSettings settings (some root) = .ok rule ∧
          Corrects rule named violation) flagged (correctable engine.rules path text) ∧
      pass engine.rules path text = ⟨⟨text, renamingEdits flagged⟩, flagged.length, []⟩ := by
  obtain ⟨flagged, sublist, corrects⟩ := Engine.correctable_corrects loaded path text
  obtain ⟨each, corrections⟩ := corrections_of_corrects (corrects.imp fun _ _ ⟨rule, _, here⟩ => ⟨rule, here⟩)
  have isFlagged : Flagged text path flagged :=
    ⟨sublist, fun named member => (each named member).1, fun named member => (each named member).2⟩
  refine ⟨flagged, isFlagged, corrects, ?_⟩
  rw [pass, registerAll_of_ascending corrections isFlagged.ascending, renamingEdits, List.length_map]

/-! ### All passes -/

/-- A pass that corrects nothing is the last one. -/
theorem correctFrom_of_nothing {rules : List Rule} {path content : Text}
    (nothing : (pass rules path content).applied = 0) (passes count : Nat) :
    ∃ notices, correctFrom rules path (passes + 1) count content =
      ⟨content, (check rules (.ofContent path content) []).violations, count, notices⟩ := by
  unfold pass correctable at nothing
  rw [correctFrom, if_pos nothing]
  exact ⟨_, rfl⟩

/-- A pass that corrects something and changes nothing is the last one. -/
theorem correctFrom_of_unchanged {rules : List Rule} {path content : Text}
    (something : (pass rules path content).applied ≠ 0)
    (unchanged : (pass rules path content).buffer.process = content) (passes count : Nat) :
    ∃ notices, correctFrom rules path (passes + 1) count content =
      ⟨content, (check rules (.ofContent path content) []).violations, count + (pass rules path content).applied,
        notices⟩ := by
  unfold pass correctable at something unchanged ⊢
  rw [correctFrom, if_neg something]
  dsimp only
  rw [if_pos unchanged]
  exact ⟨_, rfl⟩

/-- After a pass that changes the text, correction goes on with the new text. -/
theorem correctFrom_of_changed {rules : List Rule} {path content : Text}
    (something : (pass rules path content).applied ≠ 0)
    (changed : (pass rules path content).buffer.process ≠ content) (passes count : Nat) :
    ∃ notices, correctFrom rules path (passes + 1) count content =
      { correctFrom rules path passes (count + (pass rules path content).applied)
          (pass rules path content).buffer.process with notices := notices } := by
  unfold pass correctable at something changed ⊢
  rw [correctFrom, if_neg something]
  dsimp only
  rw [if_neg changed]
  exact ⟨_, rfl⟩

/-- However correction ends, what it leaves is what a check of the corrected text finds. -/
theorem correctFrom_remaining (rules : List Rule) (path : Text) (passes count : Nat) (content : Text) :
    (correctFrom rules path passes count content).remaining =
      (check rules (.ofContent path (correctFrom rules path passes count content).content) []).violations := by
  induction passes generalizing count content with
  | zero => rfl
  | succ passes ih =>
      rw [correctFrom]
      dsimp only
      split
      · rfl
      · split
        · rfl
        · exact ih _ _

/-- Whether correction goes pass by pass.  It stops where a pass applies nothing or changes nothing, and where no passes
are left; elsewhere it goes on with the text after the pass.  What is left then is what a check of the last text
finds. -/
structure GoesByPasses (rules : List Rule) (path : Text) : Prop where
  starts : ∀ content, correct rules path content = correctFrom rules path 10 0 content
  givesUp : ∀ count text,
    (correctFrom rules path 0 count text).content = text ∧ (correctFrom rules path 0 count text).count = count
  ends : ∀ passes count text, (pass rules path text).applied = 0 →
    (correctFrom rules path (passes + 1) count text).content = text ∧
      (correctFrom rules path (passes + 1) count text).count = count
  stays : ∀ passes count text, (pass rules path text).applied ≠ 0 → (pass rules path text).buffer.process = text →
    (correctFrom rules path (passes + 1) count text).content = text ∧
      (correctFrom rules path (passes + 1) count text).count = count + (pass rules path text).applied
  goesOn : ∀ passes count text, (pass rules path text).applied ≠ 0 → (pass rules path text).buffer.process ≠ text →
    ∃ notices, correctFrom rules path (passes + 1) count text =
      { correctFrom rules path passes (count + (pass rules path text).applied)
          (pass rules path text).buffer.process with notices := notices }
  remaining : ∀ passes count text, (correctFrom rules path passes count text).remaining =
    (check rules (.ofContent path (correctFrom rules path passes count text).content) []).violations

theorem goesByPasses (rules : List Rule) (path : Text) : GoesByPasses rules path := by
  constructor
  · exact fun _ => rfl
  · exact fun _ _ => ⟨rfl, rfl⟩
  · intro passes count text nothing
    obtain ⟨notices, last⟩ := correctFrom_of_nothing nothing passes count
    rw [last]
    exact ⟨rfl, rfl⟩
  · intro passes count text something unchanged
    obtain ⟨notices, last⟩ := correctFrom_of_unchanged something unchanged passes count
    rw [last]
    exact ⟨rfl, rfl⟩
  · intro passes count text something changed
    exact correctFrom_of_changed something changed passes count
  · exact correctFrom_remaining rules path

/-- Correction is as many renamings as it counts. -/
theorem Engine.correctFrom_renamed
    (loaded : (Engine.empty parallel).loadBuiltin root settings = .ok (engine, notices))
    (path : Text) (passes count : Nat) (content : Text) :
    ∃ renamings, (correctFrom engine.rules path passes count content).count = count + renamings ∧
      Renamed renamings content (correctFrom engine.rules path passes count content).content := by
  induction passes generalizing count content with
  | zero => exact ⟨0, rfl, .refl content⟩
  | succ passes ih =>
      obtain ⟨flagged, isFlagged, -, registered⟩ := Engine.pass_flagged loaded path content
      have renamed := isFlagged.renamed
      have applied : (pass engine.rules path content).applied = flagged.length := by rw [registered]
      have processed : (pass engine.rules path content).buffer.process =
          EditBuffer.process ⟨content, renamingEdits flagged⟩ := by rw [registered]
      rw [← applied, ← processed] at renamed
      by_cases nothing : (pass engine.rules path content).applied = 0
      · obtain ⟨told, last⟩ := correctFrom_of_nothing nothing passes count
        rw [last]
        exact ⟨0, rfl, .refl content⟩
      · by_cases unchanged : (pass engine.rules path content).buffer.process = content
        · obtain ⟨told, last⟩ := correctFrom_of_unchanged nothing unchanged passes count
          rw [last]
          rw [unchanged] at renamed
          exact ⟨_, rfl, renamed⟩
        · obtain ⟨told, goesOn⟩ := correctFrom_of_changed nothing unchanged passes count
          obtain ⟨later, counted, rest⟩ := ih (count + (pass engine.rules path content).applied) _
          rw [goesOn]
          exact ⟨_, counted.trans (Nat.add_assoc _ _ _), renamed.trans rest⟩

end AccessorLint
