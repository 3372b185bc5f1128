import Mathlib
import AccessorLint.Proofs.Appended
import AccessorLint.Proofs.Findings
import AccessorLint.Proofs.Pass
set_option autoImplicit false

/-!
Reports of a text below whole lines.

The violations of the methods of a text stay the same when whole lines are put above it, but for the lines and offsets
at which they stand.  Their identities count lines from the start of the method, so these do not change at all.
-/

namespace AccessorLint

open AccessorLint.Symbol (newline)
open AccessorLint.Text (WholeLines)
open Naming (NamingRule)
open Source (Blanking Declaration Definition blank)

/-! ### Lower places -/

/-- The edit in a text below more text. -/
def Edit.lowered (above : Text) (edit : Edit) : Edit :=
  { edit with start := edit.start + above.length, stop := edit.stop + above.length }

/-- Lines below more text. -/
def lowerLines (above : Text) (lines : Int × Int) : Int × Int :=
  (lines.1 + above.count newline, lines.2 + above.count newline)

/-- The finding in a text below more text. -/
def Finding.lowered (above : Text) (finding : Finding) : Finding :=
  { finding with
    line := finding.line + above.count newline
    relatedLines := finding.relatedLines.map (lowerLines above)
    correction := finding.correction.map (List.map (Edit.lowered above)) }

/-- The violation in a text below more text. -/
def Violation.lowered (above : Text) (violation : Violation) : Violation :=
  { violation with
    line := violation.line + above.count newline
    relatedLines := violation.relatedLines.map (lowerLines above)
    correction := violation.correction.map (List.map (Edit.lowered above)) }

/-- The identity of a violation does not tell how far down it stands. -/
theorem Violation.id_lowered (above : Text) (violation : Violation) : (violation.lowered above).id = violation.id := by
  have distance : (violation.lowered above).line -
      ((violation.lowered above).relatedLines.map Prod.fst).getD (violation.lowered above).line =
      violation.line - (violation.relatedLines.map Prod.fst).getD violation.line := by
    cases related : violation.relatedLines with
    | none =>
        simp only [lowered, related, Option.map_none, Option.getD_none]
        omega
    | some lines =>
        simp only [lowered, related, Option.map_some, Option.getD_some, lowerLines]
        omega
  unfold Violation.id
  dsimp only
  rw [distance]
  rfl

/-! ### Contexts -/

theorem Text.lines_appended {above : Text} (whole : WholeLines above) (below : Text) :
    ∃ upper, (above ++ below).lines = upper ++ below.lines ∧ upper.length = above.count newline := by
  induction above using Text.line_induction with
  | last line absent =>
      rw [whole.eq_nil absent]
      exact ⟨[], rfl, rfl⟩
  | line line rest absent ih =>
      have lower : WholeLines rest := @WholeLines.of_append (line ++ [newline]) rest (by simpa using whole)
      obtain ⟨upper, split, size⟩ := ih lower
      refine ⟨line :: upper, ?_, ?_⟩
      · rw [List.append_assoc, List.cons_append, lines_append_newline, lines_of_not_mem absent, split]
        rfl
      · rw [List.length_cons, size, List.count_append, List.count_cons_self, List.count_eq_zero_of_not_mem absent,
          Nat.zero_add]

theorem Context.between_appended (upper lower : List Text) {first last : Int} (counted : 1 ≤ first) (after : 0 ≤ last) :
    between (upper ++ lower) (first + upper.length) (last + upper.length) = between lower first last := by
  have stop : (last + upper.length).toNat = upper.length + last.toNat := by omega
  have start : (max (first + upper.length) 1 - 1).toNat = upper.length + (max first 1 - 1).toNat := by omega
  unfold between
  dsimp only
  rw [if_neg (by omega), if_neg (by omega), stop, start, List.take_length_add_append, List.drop_length_add_append]

theorem Finding.violation_lowered {above : Text} {finding : Finding} {lines lower : List Text}
    (context : (finding.lowered above).contextIn lines = finding.contextIn lower) (profile : RuleProfile) :
    (finding.lowered above).violation profile lines =
      (finding.violation profile lower).map (Violation.lowered above) := by
  have range : (finding.lowered above).relatedRange = lowerLines above finding.relatedRange := by
    unfold Finding.relatedRange Finding.lowered
    cases finding.relatedLines with
    | none => rfl
    | some lines => rfl
  unfold Finding.violation
  dsimp only
  rw [context, range]
  change (Except.mapError _ (Template.fill finding.kind.template finding.bindings) >>= _) = _
  cases Template.fill finding.kind.template finding.bindings with
  | error error => rfl
  | ok message =>
      cases Context.hash (finding.contextIn lower) with
      | error error => rfl
      | ok digest => rfl

/-! ### Reports -/

namespace Naming.NamingRule

variable {rule : NamingRule}

theorem findingOf_lowered (above : Text) (declaration : Declaration) :
    rule.findingOf (declaration.lowered above) = (rule.findingOf declaration).lowered above := by
  have edits : rule.correction (declaration.lowered above) (rule.outcome declaration) =
      (rule.correction declaration (rule.outcome declaration)).map (List.map (Edit.lowered above)) := by
    unfold correction
    change (if (rule.corrects && canRename declaration.name) = true then _ else _) = _
    split_ifs
    · change ((suggestions declaration.name (rule.outcome declaration)).head?).map _ = _
      cases (suggestions declaration.name (rule.outcome declaration)).head? with
      | none => rfl
      | some newName => rfl
    · rfl
  unfold findingOf Finding.lowered
  change Finding.mk _ _ _ _ _ _ _ (rule.correction (declaration.lowered above) (rule.outcome declaration)) = _
  rw [edits]
  rfl

/-- A method below whole lines makes the violation that it makes without them. -/
theorem violation?_lowered {above below : Text} (whole : WholeLines above) {declaration : Declaration}
    (counted : 0 < declaration.relatedLines.1) :
    rule.violation? (some (above ++ below).lines) (declaration.lowered above) =
      (rule.violation? (some below.lines) declaration).map (Option.map (Violation.lowered above)) := by
  obtain ⟨upper, split, size⟩ := Text.lines_appended whole below
  have context : ((rule.findingOf declaration).lowered above).contextIn (above ++ below).lines =
      (rule.findingOf declaration).contextIn below.lines := by
    rw [split]
    change Context.ofLines _ ((declaration.relatedLines.1 : Int) + _) ((declaration.relatedLines.2 : Int) + _) =
      Context.ofLines _ (declaration.relatedLines.1 : Int) (declaration.relatedLines.2 : Int)
    unfold Context.ofLines
    rw [← size, Context.between_appended upper below.lines (by omega) (by omega)]
  rw [violation?_eq, violation?_eq, findingOf_lowered, Finding.violation_lowered context]
  change (if rule.outcome declaration = .skip then _ else _) = _
  split_ifs
  · rfl
  · cases (rule.findingOf declaration).violation rule.profile below.lines with
    | error error => rfl
    | ok violation => rfl

/-- The violations of some definitions of a text, on the lines that count. -/
def report (rule : NamingRule) (text path : Text) (selected : List Int) (definitions : List Definition) :
    Except FindingError (List Violation) := do
  let found ← ((definitions.map (Definition.declared text path)).filter fun declaration =>
    isSelected selected declaration.nameRange.line).mapM (rule.violation? (some text.lines))
  pure (found.filterMap fun violation => violation)

theorem check_eq_report (rule : NamingRule) (text path : Text) (selected : List Int) :
    rule.check path text text.lines selected = rule.report text path selected (Definition.all (blank text)) := rfl

theorem report_append {text path : Text} {selected : List Int} {left right : List Definition}
    {first second : List Violation} (inLeft : rule.report text path selected left = .ok first)
    (inRight : rule.report text path selected right = .ok second) :
    rule.report text path selected (left ++ right) = .ok (first ++ second) := by
  unfold report at inLeft inRight ⊢
  obtain ⟨early, earlyFound, earlyEq⟩ := bind_eq_ok inLeft
  obtain ⟨late, lateFound, lateEq⟩ := bind_eq_ok inRight
  rw [List.map_append, List.filter_append, List.mapM_append, earlyFound, lateFound, ← Except.ok.inj earlyEq,
    ← Except.ok.inj lateEq]
  exact congrArg Except.ok List.filterMap_append

private theorem mapM_map {ε α β γ δ : Type} {list : List α} {change : α → β} {first : β → Except ε γ}
    {second : α → Except ε δ} {rename : δ → γ}
    (same : ∀ value ∈ list, first (change value) = (second value).map rename) :
    (list.map change).mapM first = (list.mapM second).map (List.map rename) := by
  induction list with
  | nil => rfl
  | cons value rest ih =>
      rw [List.map_cons, List.mapM_cons, List.mapM_cons, same value List.mem_cons_self,
        ih fun other member => same other (List.mem_cons_of_mem _ member)]
      cases second value with
      | error error => rfl
      | ok here =>
          cases rest.mapM second with
          | error error => rfl
          | ok later => rfl

theorem isSelected_lowered (selected : List Int) (line distance : Int) :
    isSelected (selected.map (· + distance)) (line + distance) = isSelected selected line := by
  unfold isSelected
  rw [List.isEmpty_map]
  congr 1
  rw [Bool.eq_iff_iff, List.contains_iff_mem, List.contains_iff_mem, List.mem_map]
  constructor
  · rintro ⟨other, member, same⟩
    rwa [← add_right_cancel same]
  · intro member
    exact ⟨line, member, rfl⟩

theorem report_lowered {above below : Text} (whole : WholeLines above) (path : Text) (selected : List Int)
    {definitions : List Definition} (inside : ∀ definition ∈ definitions, definition ∈ Definition.all (blank below)) :
    rule.report (above ++ below) path (selected.map (· + (above.count newline : Int)))
        (definitions.map (Definition.moved above.length)) =
      (rule.report below path selected definitions).map (List.map (Violation.lowered above)) := by
  have declared : (definitions.map (Definition.moved above.length)).map (Definition.declared (above ++ below) path) =
      (definitions.map (Definition.declared below path)).map (Declaration.lowered above) := by
    rw [List.map_map, List.map_map]
    exact List.map_congr_left fun definition member => definition.declared_moved whole (inside definition member) path
  have kept : (fun declaration : Declaration => isSelected (selected.map (· + (above.count newline : Int)))
      declaration.nameRange.line) ∘ Declaration.lowered above =
      fun declaration : Declaration => isSelected selected declaration.nameRange.line :=
    funext fun declaration => isSelected_lowered selected declaration.nameRange.line (above.count newline)
  have counted : ∀ declaration ∈ definitions.map (Definition.declared below path),
      0 < declaration.relatedLines.1 := by
    intro declaration member
    obtain ⟨definition, -, rfl⟩ := List.mem_map.mp member
    change 0 < (Source.position _ _).1
    rw [Source.position_line]
    omega
  unfold report
  rw [declared, List.filter_map, kept, mapM_map fun declaration member =>
    violation?_lowered whole (counted declaration (List.mem_of_mem_filter member))]
  cases List.mapM (rule.violation? (some below.lines)) _ with
  | error error => rfl
  | ok found =>
      refine congrArg Except.ok ?_
      rw [List.filterMap_map, List.map_filterMap]
      rfl

/-- Nothing stands in the way of a report on a text without stray bytes. -/
theorem report_ok (rule : NamingRule) {text : Text} (clean : Text.hasStray text = false) (path : Text) (selected : List Int)
    (definitions : List Definition) : ∃ found, rule.report text path selected definitions = .ok found := by
  have each : ∀ declaration, ∃ result, rule.violation? (some text.lines) declaration = .ok result := by
    intro declaration
    rw [violation?_eq]
    split_ifs
    · exact ⟨none, rfl⟩
    · have absent : meetsStray text.lines declaration = false := by
        rw [meetsStray, List.any_eq_false]
        intro line member strays
        have inLines : line ∈ text.lines := List.mem_of_mem_take (List.mem_of_mem_drop member)
        obtain ⟨symbol, inLine, stray⟩ := Text.hasStray_iff.mp strays
        have inText := (Text.mem_lines (by rintro rfl; cases stray) text).mp ⟨line, inLines, inLine⟩
        rw [Text.hasStray_iff.mpr ⟨symbol, inText, stray⟩] at clean
        cases clean
      obtain ⟨violation, made⟩ := findingOf_ok absent
      exact ⟨some violation, by rw [made]; rfl⟩
  obtain ⟨found, mapped, -⟩ := mapM_ok fun declaration _ => each declaration
  unfold report
  rw [mapped]
  exact ⟨_, rfl⟩

end Naming.NamingRule

/-- A text below whole lines is scanned and reported as if it stood alone.  Where the scan comes to the end of the lines
with no here-document pending, the definitions below them are those of the text at other offsets and on other lines,
and without stray bytes their violations are those of the text, with the same identities. -/
theorem report_independent_of_lines_above (rule : NamingRule) {above below : Text} {scan : Blanking}
    (whole : WholeLines above) (starts : below.head? ≠ some (.glyph '?'))
    (arrives : scan.Arrives (above ++ below) above.length) (settled : scan.pending = []) (path : Text)
    (selected : List Int) :
    let later := (Definition.all (blank (above ++ below))).filter (above.length ≤ ·.start)
    let earlier := (Definition.all (blank (above ++ below))).filter (·.start < above.length)
    let lowerSelected := selected.map (· + (above.count newline : Int))
    later = (Definition.all (blank below)).map (Definition.moved above.length) ∧
      later.map (Definition.declared (above ++ below) path) =
        (Declaration.scan below path).map (Declaration.lowered above) ∧
      (Text.hasStray (above ++ below) = false → ∃ others found,
        rule.check path below below.lines selected = .ok found ∧
        rule.report (above ++ below) path lowerSelected later = .ok (found.map (Violation.lowered above)) ∧
        rule.report (above ++ below) path lowerSelected earlier = .ok others ∧
        rule.check path (above ++ below) (above ++ below).lines lowerSelected =
          .ok (others ++ found.map (Violation.lowered above)) ∧
        ∀ violation ∈ found, (violation.lowered above).id = violation.id) := by
  intro later earlier lowerSelected
  have divided := Definition.all_divided whole starts arrives settled
  change later = _ ∧ _ = earlier ++ later at divided
  obtain ⟨laterEq, split⟩ := divided
  refine ⟨laterEq, ?_, ?_⟩
  · rw [laterEq, List.map_map, Declaration.scan, List.map_map]
    exact List.map_congr_left fun definition member => definition.declared_moved whole member path
  · intro clean
    have cleanBelow : Text.hasStray below = false := by
      rw [Text.hasStray, List.any_append, Bool.or_eq_false_iff] at clean
      exact clean.2
    obtain ⟨others, reportedAbove⟩ := rule.report_ok clean path lowerSelected earlier
    obtain ⟨found, reportedBelow⟩ := rule.report_ok cleanBelow path selected
      (Definition.all (blank below))
    have lowered : rule.report (above ++ below) path lowerSelected later = .ok (found.map (Violation.lowered above)) := by
      rw [laterEq, NamingRule.report_lowered whole path selected fun _ member => member, reportedBelow]
      rfl
    refine ⟨others, found, reportedBelow, lowered, reportedAbove, ?_, fun violation _ => violation.id_lowered above⟩
    rw [NamingRule.check_eq_report, split]
    exact NamingRule.report_append reportedAbove lowered

theorem getter_below_heredoc_reported :
    let rule : NamingRule := ⟨true, .warning, .default, true, none⟩
    let above : Text := "x = <<T\nend\nT\n"
    let below : Text := "def get_x(a)\n  a\nend\n"
    (∃ scan, Blanking.Arrives (above ++ below) above.length scan ∧ scan.pending = []) ∧
      Text.hasStray (above ++ below) = false ∧
      ((Definition.all (blank (above ++ below))).filter (14 ≤ ·.start)).map (·.header.name) = ["get_x"] ∧
      ∃ others found, rule.check "a.rb" below below.lines [1] = .ok found ∧
        rule.check "a.rb" (above ++ below) (above ++ below).lines [4] =
          .ok (others ++ found.map (Violation.lowered above)) := by
  intro rule above below
  have whole : WholeLines above := WholeLines.append_newline "x = <<T\nend\nT"
  have arrives : Blanking.Arrives (above ++ below) above.length (Blanking.run 6 (Blanking.start (above ++ below))) :=
    ⟨⟨6, rfl⟩, by decide +kernel⟩
  have settled : (Blanking.run 6 (Blanking.start (above ++ below))).pending = [] := by decide +kernel
  have clean : Text.hasStray (above ++ below) = false := by decide
  obtain ⟨-, -, reports⟩ := report_independent_of_lines_above rule whole (by decide) arrives settled "a.rb" [1]
  obtain ⟨others, found, alone, -, -, together, -⟩ := reports clean
  exact ⟨⟨_, arrives, settled⟩, clean, by decide +kernel, others, found, alone, together⟩

end AccessorLint
