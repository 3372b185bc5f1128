import Mathlib
import AccessorLint.Proofs.Findings
import AccessorLint.Proofs.Pass
set_option autoImplicit false

/-!
Projects at other places.

A method is classified by the path of its file inside the project.  So a project that is moved as a whole has the same
violations as before, but for the paths of their files.
-/

namespace AccessorLint

/-! ### Texts of paths -/

namespace Path

/-- Whether a name means something in a path: it is not empty, no `.`, and not divided by a slash. -/
structure IsPlainName (name : Text) : Prop where
  nonempty : name ≠ []
  noDot : name ≠ "."
  noSlash : slash ∉ name

/-- Whether a path has been resolved: it starts from the root directory, and its names are plain and no `..`. -/
structure Resolved (path : Path) : Prop where
  top : path.root = .top
  names : ∀ name ∈ path.parts, IsPlainName name
  noParent : ∀ name ∈ path.parts, name ≠ ".."

/-- A text put after the text of a path, with a slash between them unless the path is a root. -/
def extended (directory : Path) (inside : Text) : Text :=
  if directory.parts.isEmpty then directory.text ++ inside else directory.text ++ slash :: inside

/-- The ways to write the path that a text writes inside a directory: the text as it stands after the text of the
directory, or the names of both without those that mean nothing. -/
inductive Spelled (directory : Path) (inside : Text) : Text → Prop where
  | extended : Spelled directory inside (directory.extended inside)
  | joined : Spelled directory inside (directory.join (.ofText inside)).text

theorem partsOf_append_slash (left right : Text) : partsOf (left ++ slash :: right) = partsOf left ++ partsOf right := by
  rw [partsOf, Text.split_append_cons, List.filter_append]
  rfl

theorem plain_of_mem_partsOf {text name : Text} (member : name ∈ partsOf text) : IsPlainName name := by
  obtain ⟨inSplit, visible⟩ := List.mem_filter.mp member
  rw [Bool.and_eq_true, Bool.not_eq_true', List.isEmpty_eq_false_iff, bne_iff_ne] at visible
  exact ⟨visible.1, visible.2, Text.not_mem_of_mem_split inSplit⟩

theorem partsOf_joined {names : List Text} (plain : ∀ name ∈ names, IsPlainName name) :
    partsOf (Text.joined [slash] names) = names := by
  by_cases none : names = []
  · rw [none]
    rfl
  · rw [partsOf, Text.split_joined none fun name member => (plain name member).noSlash, List.filter_eq_self]
    intro name member
    simp [(plain name member).nonempty, (plain name member).noDot]

theorem takeWhile_slash {text : Text} (relative : text.head? ≠ some slash) : text.takeWhile (· == slash) = [] := by
  cases text with
  | nil => rfl
  | cons first others =>
      apply List.takeWhile_cons_of_neg
      rw [beq_iff_eq]
      rintro rfl
      exact relative rfl

theorem ofText_relative {text : Text} (relative : text.head? ≠ some slash) : ofText text = ⟨.here, partsOf text⟩ := by
  rw [ofText, takeWhile_slash relative]
  rfl

/-- A text with one slash at its start writes a path from the root directory. -/
theorem ofText_slash {rest : Text} (single : rest.head? ≠ some slash) :
    ofText (slash :: rest) = ⟨.top, partsOf rest⟩ := by
  have parts : partsOf (slash :: rest) = partsOf rest := partsOf_append_slash [] rest
  have count : (slash :: rest).takeWhile (· == slash) = [slash] := congrArg (slash :: ·) (takeWhile_slash single)
  rw [ofText, count, parts]
  rfl

theorem joined_head {names : List Text} (plain : ∀ name ∈ names, IsPlainName name) (nonempty : names ≠ [])
    (rest : Text) : (Text.joined [slash] names ++ rest).head? ≠ some slash := by
  obtain ⟨name, others, rfl⟩ := List.exists_cons_of_ne_nil nonempty
  obtain ⟨first, letters, rfl⟩ := List.exists_cons_of_ne_nil (plain name List.mem_cons_self).nonempty
  have other : first ≠ slash := by
    rintro rfl
    exact (plain _ List.mem_cons_self).noSlash List.mem_cons_self
  cases others with
  | nil => simpa [Text.joined_singleton] using other
  | cons next later => simpa [Text.joined_cons_cons] using other

theorem text_of_top (names : List Text) : text ⟨.top, names⟩ = slash :: Text.joined [slash] names := rfl

theorem ofText_text {names : List Text} (plain : ∀ name ∈ names, IsPlainName name) :
    ofText (text ⟨.top, names⟩) = ⟨.top, names⟩ := by
  have single : (Text.joined [slash] names).head? ≠ some slash := by
    cases names with
    | nil => exact Option.some_ne_none _ |>.symm
    | cons name others => simpa using joined_head plain (List.cons_ne_nil _ _) []
  rw [text_of_top, ofText_slash single, partsOf_joined plain]

/-- Whatever way it is written, a path inside a resolved directory is read as the names of both. -/
theorem Spelled.ofText_eq {directory : Path} {inside file : Text} (spelled : Spelled directory inside file)
    (resolved : Resolved directory) (relative : inside.head? ≠ some slash) :
    ofText file = ⟨.top, directory.parts ++ partsOf inside⟩ := by
  obtain ⟨root, names⟩ := directory
  obtain ⟨top, plain, -⟩ := resolved
  dsimp only at top plain ⊢
  subst top
  cases spelled with
  | extended =>
      cases names with
      | nil => exact ofText_slash relative
      | cons name others =>
          change ofText (slash :: (Text.joined [slash] (name :: others) ++ slash :: inside)) = _
          rw [ofText_slash (joined_head plain (List.cons_ne_nil _ _) _), partsOf_append_slash, partsOf_joined plain]
  | joined =>
      have joinEq : join ⟨.top, names⟩ (ofText inside) = ⟨.top, names ++ partsOf inside⟩ := by
        rw [ofText_relative relative]
        rfl
      rw [joinEq]
      apply ofText_text
      intro name member
      rcases List.mem_append.mp member with inNames | inParts
      · exact plain name inNames
      · exact plain_of_mem_partsOf inParts

theorem relativeTo?_append (root : Root) (names inside : List Text) :
    relativeTo? ⟨root, names ++ inside⟩ ⟨root, names⟩ = some ⟨.here, inside⟩ := by
  have starts : names.isPrefixOf (names ++ inside) = true := List.isPrefixOf_iff_prefix.mpr (List.prefix_append _ _)
  simp [relativeTo?, starts]

end Path

/-! ### Violations of other files -/

/-- The declaration in a file at another path. -/
def Source.Declaration.inFile (file : Text) (declaration : Source.Declaration) : Source.Declaration :=
  { declaration with filePath := file }

/-- The finding in a file at another path. -/
def Finding.inFile (file : Text) (finding : Finding) : Finding :=
  { finding with filePath := file }

/-- The violation in a file at another path. -/
def Violation.inFile (file : Text) (violation : Violation) : Violation :=
  { violation with filePath := file }

theorem Finding.violation_inFile (file : Text) (finding : Finding) (profile : RuleProfile) (lines : List Text) :
    (finding.inFile file).violation profile lines = (finding.violation profile lines).map (Violation.inFile file) := by
  have context : (finding.inFile file).contextIn lines = finding.contextIn lines := rfl
  unfold violation
  dsimp only
  rw [context]
  change (Except.mapError _ (Template.fill finding.kind.template finding.bindings) >>= _) = _
  cases Template.fill finding.kind.template finding.bindings with
  | error error => rfl
  | ok message =>
      cases Context.hash (finding.contextIn lines) with
      | error error => rfl
      | ok digest => rfl

namespace Naming.NamingRule

open Source (Declaration)

theorem contextOf_inFile (file : Text) (declaration : Declaration) (lines : Option (List Text)) :
    contextOf (declaration.inFile file) lines = contextOf declaration lines := by
  cases lines with
  | none => rfl
  | some lines => rfl

/-- The rule for a project in a directory. -/
def inProject (directory : Path) (rule : NamingRule) : NamingRule :=
  { rule with projectRoot := some directory }

theorem ofSettings_inProject {settings : RuleSettings} {project : Option Path} {rule : NamingRule}
    (made : ofSettings settings project = .ok rule) (directory : Path) :
    ofSettings settings (some directory) = .ok (rule.inProject directory) := by
  unfold ofSettings at made ⊢
  obtain ⟨severity, isSeverity, made⟩ := bind_eq_ok made
  obtain ⟨patterns, arePatterns, made⟩ := bind_eq_ok made
  rw [isSeverity, ← Except.ok.inj made]
  change (patternSetsOf settings >>= _) = _
  rw [arePatterns]
  rfl

/-- A file of a project is seen by its path inside the project. -/
theorem viewedPath_inProject (rule : NamingRule) {directory : Path} (resolved : directory.Resolved) {inside file : Text}
    (relative : inside.head? ≠ some Path.slash) (spelled : Path.Spelled directory inside file) :
    (rule.inProject directory).viewedPath file = "/" ++ Path.text ⟨.here, Path.partsOf inside⟩ := by
  obtain ⟨root, names⟩ := directory
  have read := spelled.ofText_eq resolved relative
  obtain ⟨rfl, -, -⟩ := resolved
  have inProject : pathInProject? (some ⟨.top, names⟩) file = some (Path.text ⟨.here, Path.partsOf inside⟩) := by
    unfold pathInProject?
    change (if (Path.ofText file).isAbsolute = true then _ else _) = _
    rw [read, if_pos (show Path.isAbsolute _ = true from rfl), Path.relativeTo?_append]
    rfl
  have placed : (rule.inProject ⟨.top, names⟩).projectRoot = some ⟨.top, names⟩ := rfl
  rw [viewedPath, placed, inProject]

/-- The same files of a project at two places have the same findings, but for their paths. -/
theorem finding?_moved (rule : NamingRule) {first second : Path} {firstFile secondFile : Text}
    (sameView : (rule.inProject first).viewedPath firstFile = (rule.inProject second).viewedPath secondFile)
    (lines : Option (List Text)) (declaration : Declaration) :
    (rule.inProject second).finding? lines (declaration.inFile secondFile) =
      ((rule.inProject first).finding? lines (declaration.inFile firstFile)).map (Finding.inFile secondFile) := by
  have sameOutcome : (rule.inProject second).outcome (declaration.inFile secondFile) =
      (rule.inProject first).outcome (declaration.inFile firstFile) := by
    unfold outcome
    change classify _ ⟨_, _, _, (rule.inProject second).viewedPath secondFile⟩ =
      classify _ ⟨_, _, _, (rule.inProject first).viewedPath firstFile⟩
    rw [sameView]
    rfl
  unfold finding?
  dsimp only
  rw [sameOutcome]
  split
  · rfl
  · rfl

theorem violation?_moved (rule : NamingRule) {first second : Path} {firstFile secondFile : Text}
    (sameView : (rule.inProject first).viewedPath firstFile = (rule.inProject second).viewedPath secondFile)
    (lines : Option (List Text)) (declaration : Declaration) :
    (rule.inProject second).violation? lines (declaration.inFile secondFile) =
      ((rule.inProject first).violation? lines (declaration.inFile firstFile)).map
        (Option.map (Violation.inFile secondFile)) := by
  unfold violation?
  rw [rule.finding?_moved sameView]
  cases (rule.inProject first).finding? lines (declaration.inFile firstFile) with
  | none => rfl
  | some finding =>
      change ((finding.inFile secondFile).violation rule.profile (lines.getD [])).map some =
        ((finding.violation rule.profile (lines.getD [])).map some).map _
      rw [Finding.violation_inFile]
      cases finding.violation rule.profile (lines.getD []) with
      | error error => rfl
      | ok violation => rfl

end Naming.NamingRule

open Naming (NamingRule)
open Source (Declaration)

/-- Where a project is does not matter to what the rule says about its methods.  For a project in two directories, the
rule skips a method in both, or makes violations of it that differ only in the path of the file and in what is made of
it, or fails in both.  Of a method that it does not skip it makes violations exactly if no stray byte stands in the text
around it. -/
theorem violations_independent_of_directory {settings : RuleSettings} {first second : Path} {rule : NamingRule}
    (made : NamingRule.ofSettings settings (some first) = .ok rule) (firstResolved : first.Resolved)
    (secondResolved : second.Resolved) {inside firstFile secondFile : Text}
    (relative : inside.head? ≠ some Path.slash) (inFirst : first.Spelled inside firstFile)
    (inSecond : second.Spelled inside secondFile) (lines : Option (List Text)) (declaration : Declaration) :
    ∃ moved, NamingRule.ofSettings settings (some second) = .ok moved ∧
      let here := rule.violation? lines (declaration.inFile firstFile)
      let there := moved.violation? lines (declaration.inFile secondFile)
      here = .ok none ∧ there = .ok none ∨
        (Text.hasStray (NamingRule.contextOf declaration lines) = false ∧
          ∃ violation : Violation, here = .ok (some (violation.inFile firstFile)) ∧
            there = .ok (some (violation.inFile secondFile))) ∨
        Text.hasStray (NamingRule.contextOf declaration lines) = true ∧
          ∃ error, here = .error error ∧ there = .error error := by
  refine ⟨_, NamingRule.ofSettings_inProject made second, ?_⟩
  have placed : rule.inProject first = rule :=
    Except.ok.inj ((NamingRule.ofSettings_inProject made first).symm.trans made)
  have firstView := rule.viewedPath_inProject firstResolved relative inFirst
  have secondView := rule.viewedPath_inProject secondResolved relative inSecond
  have stays := rule.violation?_moved (firstView.trans firstView.symm) lines declaration
  have moves := rule.violation?_moved (firstView.trans secondView.symm) lines declaration
  rw [placed] at stays moves
  dsimp only
  rw [moves]
  cases result : rule.violation? lines (declaration.inFile firstFile) with
  | error error =>
      have strays := NamingRule.violation?_error result
      rw [NamingRule.contextOf_inFile] at strays
      exact Or.inr (Or.inr ⟨strays, error, rfl, rfl⟩)
  | ok found =>
      rw [result] at stays
      cases found with
      | none => exact Or.inl ⟨rfl, rfl⟩
      | some violation =>
          have clean := NamingRule.clean_of_violation result
          rw [NamingRule.contextOf_inFile] at clean
          exact Or.inr (Or.inl ⟨clean, violation, stays, rfl⟩)

/-- A directory above the project that is named like an API client makes no API client of its files. -/
theorem setter_below_clients_no_api_setter :
    let inside : Text := "lib//./x.rb"
    let clients : Path := .ofText "/home/clients_app"
    let root : Path := .ofText "/"
    ∃ (rule moved : NamingRule) (declaration : Declaration) (violation : Violation),
      NamingRule.ofSettings .default (some clients) = .ok rule ∧ NamingRule.ofSettings .default (some root) = .ok moved ∧
        Declaration.scan "def set_x(a)\nend\n" "x.rb" = [declaration] ∧
        rule.violation? none (declaration.inFile (clients.extended inside)) =
          .ok (some (violation.inFile (clients.extended inside))) ∧
        moved.violation? none (declaration.inFile (root.extended inside)) =
          .ok (some (violation.inFile (root.extended inside))) ∧
        violation.subType = some "set_with_arguments" := by
  intro inside clients root
  have clientsResolved : clients.Resolved := ⟨rfl, fun _ member => Path.plain_of_mem_partsOf member, by decide⟩
  have rootResolved : root.Resolved := ⟨rfl, fun _ member => Path.plain_of_mem_partsOf member, by decide⟩
  obtain ⟨rule, declaration, made, scanned, outcome, clean⟩ : ∃ rule declaration,
      NamingRule.ofSettings .default (some clients) = .ok rule ∧
        Declaration.scan "def set_x(a)\nend\n" "x.rb" = [declaration] ∧
        rule.outcome (declaration.inFile (clients.extended inside)) = .setter ∧
        Text.hasStray (NamingRule.contextOf declaration none) = false :=
    ⟨_, _, rfl, rfl, by decide +kernel, by decide +kernel⟩
  obtain ⟨moved, movedMade, same⟩ := violations_independent_of_directory made clientsResolved rootResolved
    (by decide : inside.head? ≠ some Path.slash) .extended .extended none declaration
  obtain ⟨reported, report, tells⟩ := @NamingRule.violation?_clean rule none
    (declaration.inFile (clients.extended inside)) (by rw [outcome]; decide) clean
  have subType := tells.subType
  change _ = some (rule.outcome (declaration.inFile (clients.extended inside))).name at subType
  rw [outcome] at subType
  rcases same with ⟨skipped, -⟩ | ⟨-, violation, here, there⟩ | ⟨strays, -⟩
  · cases report.symm.trans skipped
  · rw [Option.some.inj (Except.ok.inj (report.symm.trans here))] at subType
    exact ⟨rule, moved, declaration, violation, made, movedMade, scanned, here, there, subType⟩
  · rw [clean] at strays
    cases strays

/-- A method with a stray byte is left without a violation, wherever the project is. -/
theorem setter_with_stray_byte_unreported :
    let inside : Text := "lib/x.rb"
    let clients : Path := .ofText "/home/clients_app"
    let root : Path := .ofText "/"
    ∃ (rule moved : NamingRule) (bytes : Text.Bytes) (declaration : Declaration),
      bytes = Text.encode "def set_x(a) # " ++ 0xFF :: Text.encode "\nend\n" ∧
        NamingRule.ofSettings .default (some clients) = .ok rule ∧
        NamingRule.ofSettings .default (some root) = .ok moved ∧
        Declaration.scan (Text.decode bytes) "x.rb" = [declaration] ∧
        (∀ result, rule.violation? none (declaration.inFile (clients.extended inside)) ≠ .ok result) ∧
        ∀ result, moved.violation? none (declaration.inFile (root.extended inside)) ≠ .ok result := by
  intro inside clients root
  let bytes : Text.Bytes := Text.encode "def set_x(a) # " ++ 0xFF :: Text.encode "\nend\n"
  obtain ⟨declaration, scanned⟩ : ∃ declaration, Declaration.scan (Text.decode bytes) "x.rb" = [declaration] :=
    List.length_eq_one_iff.mp (by decide +kernel)
  have member : declaration ∈ Declaration.scan (Text.decode bytes) "x.rb" := by
    rw [scanned]
    exact List.mem_singleton_self _
  have strays : ∀ declaration ∈ Declaration.scan (Text.decode bytes) "x.rb",
      Text.hasStray (NamingRule.contextOf declaration none) = true := by decide +kernel
  obtain ⟨rule, made, flagged⟩ : ∃ rule, NamingRule.ofSettings .default (some clients) = .ok rule ∧
      ∀ declaration ∈ Declaration.scan (Text.decode bytes) "x.rb",
        rule.outcome (declaration.inFile (clients.extended inside)) ≠ .skip := ⟨_, rfl, by decide +kernel⟩
  obtain ⟨moved, movedMade, movedFlagged⟩ : ∃ moved, NamingRule.ofSettings .default (some root) = .ok moved ∧
      ∀ declaration ∈ Declaration.scan (Text.decode bytes) "x.rb",
        moved.outcome (declaration.inFile (root.extended inside)) ≠ .skip := ⟨_, rfl, by decide +kernel⟩
  refine ⟨rule, moved, bytes, declaration, rfl, made, movedMade, scanned, ?_, ?_⟩
  · exact NamingRule.violation?_ne_ok (flagged declaration member) (strays declaration member)
  · exact NamingRule.violation?_ne_ok (movedFlagged declaration member) (strays declaration member)

end AccessorLint
