import Mathlib
import AccessorLint.Naming.Rule
import AccessorLint.Proofs.Lines
import AccessorLint.Proofs.Lists
import AccessorLint.Proofs.Symbols
set_option autoImplicit false

/-!
When a finding makes a violation.

The message of a finding never fails: a template asks only for names, and those of the naming rule are always given.
The digest of its context fails exactly if a stray byte stands on one of its lines.
-/

namespace AccessorLint

open AccessorLint.Symbol (newline)

/-! ### Messages -/

namespace Template

theorem lookup_isSome {left right : Bindings} (names : left.map Prod.fst = right.map Prod.fst) (name : Text) :
    (left.lookup name).isSome = (right.lookup name).isSome := by
  induction left generalizing right with
  | nil =>
      rw [List.map_nil, eq_comm, List.map_eq_nil_iff] at names
      rw [names]
  | cons first others ih =>
      obtain ⟨second, later, rfl, same, rest⟩ := List.map_eq_cons_iff.mp names.symm
      obtain ⟨name₁, value₁⟩ := first
      obtain ⟨name₂, value₂⟩ := second
      change name₂ = name₁ at same
      subst same
      rw [List.lookup_cons, List.lookup_cons]
      split
      · rfl
      · exact ih rest.symm

private theorem isOk_bind_pure {ε α β : Type} (result : Except ε α) (apply : α → β) :
    (result >>= fun value => pure (apply value)).isOk = result.isOk := by
  cases result <;> rfl

/-- Whether a template can be filled depends only on the names that are given. -/
theorem fillFrom_isOk {left right : Bindings} (names : left.map Prod.fst = right.map Prod.fst) (name : Option Text)
    (template : Text) : (fillFrom left name template).isOk = (fillFrom right name template).isOk := by
  fun_induction fillFrom left name template with
  | case1 => rfl
  | case2 => rfl
  | case3 read nonempty =>
      rw [fillFrom]
      exact nonempty
  | case4 rest ih =>
      rw [fillFrom.eq_def right]
      exact ih
  | case5 after noOpen ih =>
      rw [fillFrom, if_neg noOpen, if_pos rfl, isOk_bind_pure, isOk_bind_pure, ih]
  | case6 rest alone noOpen =>
      rw [fillFrom, if_neg noOpen, if_pos rfl]
      exact alone
  | case7 symbol rest noOpen noClose ih =>
      rw [fillFrom.eq_def right]
      dsimp only
      rw [if_neg noOpen, if_neg noClose, isOk_bind_pure, isOk_bind_pure, ih]
  | case8 read symbol rest doubled ih => rw [fillFrom, if_pos doubled, isOk_bind_pure, isOk_bind_pure, ih]
  | case9 read rest text found noOpen ih =>
      have given := lookup_isSome names read.reverse
      rw [found, Option.isSome_some, eq_comm, Option.isSome_iff_exists] at given
      obtain ⟨other, otherFound⟩ := given
      rw [fillFrom, if_neg noOpen, if_pos rfl, otherFound]
      dsimp only
      rw [isOk_bind_pure, isOk_bind_pure, ih]
  | case10 read rest missing noOpen =>
      have given := lookup_isSome names read.reverse
      rw [missing, Option.isSome_none, eq_comm, Option.isSome_eq_false_iff, Option.isNone_iff_eq_none] at given
      rw [fillFrom, if_neg noOpen, if_pos rfl, given]
  | case11 read symbol rest noOpen noClose ih => rw [fillFrom, if_neg noOpen, if_neg noClose, ih]

end Template

/-- Every outcome has a message, whatever the method is called. -/
theorem Naming.message_ok (name : Text) (outcome : Naming.Outcome) :
    ∃ message, Template.fill outcome.template (Naming.bindings name outcome) = .ok message := by
  have names : (Naming.bindings name outcome).map Prod.fst = (Naming.bindings [] outcome).map Prod.fst := by
    cases outcome <;> rfl
  have filled : ∀ outcome ∈ Naming.Outcome.all,
      (Template.fillFrom (Naming.bindings [] outcome) none outcome.template).isOk = true := by decide +kernel
  have member : outcome ∈ Naming.Outcome.all := by cases outcome <;> decide
  have ok := (Template.fillFrom_isOk names none outcome.template).trans (filled outcome member)
  rw [Template.fill]
  cases result : Template.fillFrom (Naming.bindings name outcome) none outcome.template with
  | error error =>
      rw [result] at ok
      cases ok
  | ok message => exact ⟨message, rfl⟩

/-! ### Stray bytes -/

namespace Text

theorem isStray_blank {symbol : Symbol} (stray : isStray symbol = true) : symbol.isBlank = false := by
  cases symbol with
  | glyph char => cases stray
  | stray low => rfl

theorem hasStray_iff {text : Text} : hasStray text = true ↔ ∃ symbol ∈ text, isStray symbol = true :=
  List.any_eq_true

theorem strays?_isSome (text : Text) : (strays? text).isSome = hasStray text := by
  obtain ⟨run, rest, rfl, taken, inside, stops⟩ := Source.exists_run (fun symbol => !isStray symbol) text
  have none : hasStray run = false := by
    rw [hasStray, List.any_eq_false]
    intro symbol member
    change ¬isStray symbol = true
    simpa using inside symbol member
  have split : hasStray (run ++ rest) = hasStray rest := by
    rw [hasStray, List.any_append]
    change (hasStray run || hasStray rest) = hasStray rest
    rw [none, Bool.false_or]
  unfold strays?
  rw [split, taken]
  dsimp only
  rw [List.drop_left]
  cases rest with
  | nil => rfl
  | cons first others =>
      have stray : isStray first = true := by simpa using stops first rfl
      exact (hasStray_iff.mpr ⟨first, List.mem_cons_self, stray⟩).symm

/-- A text has a digest exactly if no stray byte is in it. -/
theorem digest_isOk (text : Text) : (digest text).isOk = !hasStray text := by
  rw [← strays?_isSome]
  unfold digest encodeStrict
  cases strays? text with
  | none => rfl
  | some error => rfl

theorem mem_of_mem_trimRight {symbol : Symbol} {text : Text} (member : symbol ∈ trimRight text) : symbol ∈ text :=
  List.mem_reverse.mp ((List.dropWhile_suffix _).subset (List.mem_reverse.mp member))

theorem mem_trimRight {symbol : Symbol} {text : Text} (visible : symbol.isBlank = false) :
    symbol ∈ trimRight text ↔ symbol ∈ text := by
  refine ⟨mem_of_mem_trimRight, fun member => ?_⟩
  obtain ⟨left, right, rfl⟩ := List.append_of_mem member
  rw [trimRight_append visible]
  simp

theorem mem_lines {symbol : Symbol} (other : symbol ≠ newline) (text : Text) :
    (∃ line ∈ lines text, symbol ∈ line) ↔ symbol ∈ text := by
  induction text using line_induction with
  | last line absent =>
      rw [lines_of_not_mem absent]
      simp
  | line line rest absent ih =>
      rw [lines_append_newline, lines_of_not_mem absent]
      simp only [List.mem_append, List.mem_cons, List.not_mem_nil, or_false, or_and_right, exists_or, exists_eq_left, ih,
        other, false_or]

theorem mem_unlines {symbol : Symbol} (other : symbol ≠ newline) (parts : List Text) :
    symbol ∈ unlines parts ↔ ∃ line ∈ parts, symbol ∈ line := by
  induction parts with
  | nil => simp [unlines, joined, List.intercalate]
  | cons line rest ih =>
      cases rest with
      | nil => simp [unlines, joined, List.intercalate]
      | cons next later =>
          have split : unlines (line :: next :: later) = line ++ newline :: unlines (next :: later) := by
            simp [unlines, joined, List.intercalate]
          rw [split, List.mem_append, List.mem_cons, ih]
          simp [other]

end Text

namespace Context

theorem mem_squeezed {symbol : Symbol} (visible : symbol.isBlank = false) (context : Text) :
    symbol ∈ squeezed context ↔ symbol ∈ context := by
  have other : symbol ≠ newline := by
    rintro rfl
    cases visible
  rw [squeezed, List.mem_flatMap, ← Text.mem_lines other context]
  constructor
  · rintro ⟨line, inLines, inTrimmed⟩
    exact ⟨line, inLines, (List.dropWhile_suffix _).subset (Text.mem_of_mem_trimRight inTrimmed)⟩
  · rintro ⟨line, inLines, inLine⟩
    exact ⟨line, inLines, Text.mem_trim visible inLine⟩

theorem hasStray_squeezed (context : Text) : Text.hasStray (squeezed context) = Text.hasStray context := by
  rw [Bool.eq_iff_iff, Text.hasStray_iff, Text.hasStray_iff]
  refine exists_congr fun symbol => and_congr_left fun stray => ?_
  exact mem_squeezed (Text.isStray_blank stray) context

theorem hasStray_ofLines (lines : List Text) (first last : Int) :
    Text.hasStray (ofLines lines first last) = (between lines first last).any Text.hasStray := by
  rw [Bool.eq_iff_iff, Text.hasStray_iff, List.any_eq_true, ofLines]
  constructor
  · rintro ⟨symbol, member, stray⟩
    have visible := Text.isStray_blank stray
    rw [Text.mem_unlines (by rintro rfl; cases stray)] at member
    obtain ⟨trimmed, inTrimmed, member⟩ := member
    obtain ⟨line, inLines, rfl⟩ := List.mem_map.mp inTrimmed
    exact ⟨line, inLines, Text.hasStray_iff.mpr ⟨symbol, Text.mem_of_mem_trimRight member, stray⟩⟩
  · rintro ⟨line, inLines, strays⟩
    obtain ⟨symbol, member, stray⟩ := Text.hasStray_iff.mp strays
    refine ⟨symbol, ?_, stray⟩
    rw [Text.mem_unlines (by rintro rfl; cases stray)]
    exact ⟨_, List.mem_map_of_mem inLines, (Text.mem_trimRight (Text.isStray_blank stray)).mpr member⟩

/-- A context has a digest exactly if no stray byte is in it. -/
theorem hash_isOk (context : Text) : (hash context).isOk = !Text.hasStray context := by
  rw [hash, Text.digest_isOk, hasStray_squeezed]

end Context

/-! ### Violations -/

namespace Finding

theorem violation_isOk {finding : Finding} {message : Text}
    (filled : Template.fill finding.kind.template finding.bindings = .ok message) (profile : RuleProfile)
    (lines : List Text) : (finding.violation profile lines).isOk = !Text.hasStray (finding.contextIn lines) := by
  rw [← Context.hash_isOk]
  unfold violation
  dsimp only
  rw [filled]
  cases Context.hash (finding.contextIn lines) with
  | ok digest => rfl
  | error error => rfl

/-- What a violation says about the rule and the place. -/
structure Tells (finding : Finding) (profile : RuleProfile) (lines : List Text) (violation : Violation) : Prop where
  filePath : violation.filePath = finding.filePath
  line : violation.line = finding.line
  column : violation.column = finding.column
  severity : violation.severity = profile.severity
  message : Template.fill finding.kind.template finding.bindings = .ok violation.message
  ruleId : violation.ruleId = profile.identifier
  relatedLines : violation.relatedLines = some finding.relatedRange
  context : violation.context = some (finding.contextIn lines)
  codeHash : (Context.hash (finding.contextIn lines)).toOption = violation.codeHash
  subType : violation.subType = some finding.kind.subType
  correction : violation.correction = finding.correction

theorem violation_tells {finding : Finding} {profile : RuleProfile} {lines : List Text} {violation : Violation}
    (made : finding.violation profile lines = .ok violation) : finding.Tells profile lines violation := by
  unfold Finding.violation at made
  dsimp only at made
  cases filled : Template.fill finding.kind.template finding.bindings with
  | error error =>
      rw [filled] at made
      cases made
  | ok message =>
      cases hashed : Context.hash (finding.contextIn lines) with
      | error error =>
          rw [filled, hashed] at made
          cases made
      | ok digest =>
          rw [filled, hashed] at made
          rw [← Except.ok.inj made]
          exact ⟨rfl, rfl, rfl, rfl, filled, rfl, rfl, rfl, by rw [hashed]; rfl, rfl, rfl⟩

end Finding

namespace Naming.NamingRule

open Source (Declaration)

/-- What the rule finds about a method that it does not skip. -/
def findingOf (rule : NamingRule) (declaration : Declaration) : Finding where
  filePath := declaration.filePath
  line := declaration.nameRange.line
  column := declaration.nameRange.column
  kind := (rule.outcome declaration).kind
  bindings := bindings declaration.name (rule.outcome declaration)
  relatedLines := some (declaration.relatedLines.1, declaration.relatedLines.2)
  context := none
  correction := rule.correction declaration (rule.outcome declaration)

theorem violation?_eq (rule : NamingRule) (lines : List Text) (declaration : Declaration) :
    rule.violation? (some lines) declaration =
      if rule.outcome declaration = .skip then .ok none
      else ((rule.findingOf declaration).violation rule.profile lines).map some := by
  unfold violation? finding?
  by_cases skips : rule.outcome declaration = .skip
  · rw [if_pos skips, if_pos skips]
  · rw [if_neg skips, if_neg skips]
    rfl

/-- Whether a stray byte stands on the lines of a method. -/
def meetsStray (lines : List Text) (declaration : Declaration) : Bool :=
  (Context.between lines declaration.relatedLines.1 declaration.relatedLines.2).any Text.hasStray

/-- A method that is not skipped makes a violation unless a stray byte stands on its lines. -/
theorem findingOf_isOk (rule : NamingRule) (lines : List Text) (declaration : Declaration) :
    ((rule.findingOf declaration).violation rule.profile lines).isOk = !meetsStray lines declaration := by
  obtain ⟨message, filled⟩ := message_ok declaration.name (rule.outcome declaration)
  have made : ((rule.findingOf declaration).violation rule.profile lines).isOk =
      !Text.hasStray ((rule.findingOf declaration).contextIn lines) := Finding.violation_isOk filled rule.profile lines
  rw [made]
  congr 1
  exact Context.hasStray_ofLines lines declaration.relatedLines.1 declaration.relatedLines.2

theorem findingOf_ok {rule : NamingRule} {lines : List Text} {declaration : Declaration}
    (absent : meetsStray lines declaration = false) :
    ∃ violation, (rule.findingOf declaration).violation rule.profile lines = .ok violation := by
  have made := rule.findingOf_isOk lines declaration
  rw [absent] at made
  cases result : (rule.findingOf declaration).violation rule.profile lines with
  | error error =>
      rw [result] at made
      cases made
  | ok violation => exact ⟨violation, rfl⟩

theorem findingOf_error {rule : NamingRule} {lines : List Text} {declaration : Declaration}
    (meets : meetsStray lines declaration = true) :
    ∃ error, (rule.findingOf declaration).violation rule.profile lines = .error error := by
  have made := rule.findingOf_isOk lines declaration
  rw [meets] at made
  cases result : (rule.findingOf declaration).violation rule.profile lines with
  | error error => exact ⟨error, rfl⟩
  | ok violation =>
      rw [result] at made
      cases made

/-- The text around a method: its lines if those of the file are given, else its source text. -/
def contextOf (declaration : Declaration) : Option (List Text) → Text
  | none => declaration.sourceText
  | some lines => Context.ofLines lines declaration.relatedLines.1 declaration.relatedLines.2

/-- What the rule finds about a method that it does not skip, with the text around it. -/
def findingIn (rule : NamingRule) (lines : Option (List Text)) (declaration : Declaration) : Finding :=
  { rule.findingOf declaration with context := some (contextOf declaration lines) }

/-- The lines of the file matter only by the text around the method. -/
theorem violation?_eq_findingIn (rule : NamingRule) (lines : Option (List Text)) (declaration : Declaration) :
    rule.violation? lines declaration =
      if rule.outcome declaration = .skip then .ok none
      else ((rule.findingIn lines declaration).violation rule.profile []).map some := by
  unfold violation? finding?
  by_cases skips : rule.outcome declaration = .skip
  · rw [if_pos skips, if_pos skips]
  · rw [if_neg skips, if_neg skips]
    cases lines with
    | none => rfl
    | some lines => rfl

theorem findingIn_isOk (rule : NamingRule) (lines : Option (List Text)) (declaration : Declaration) :
    ((rule.findingIn lines declaration).violation rule.profile []).isOk =
      !Text.hasStray (contextOf declaration lines) := by
  obtain ⟨message, filled⟩ := message_ok declaration.name (rule.outcome declaration)
  exact @Finding.violation_isOk (rule.findingIn lines declaration) message filled rule.profile []

/-- A method that is not skipped makes a violation where no stray byte stands in the text around it. -/
theorem violation?_clean {rule : NamingRule} {lines : Option (List Text)} {declaration : Declaration}
    (found : rule.outcome declaration ≠ .skip) (clean : Text.hasStray (contextOf declaration lines) = false) :
    ∃ violation, rule.violation? lines declaration = .ok (some violation) ∧
      (rule.findingIn lines declaration).Tells rule.profile [] violation := by
  have isOk := rule.findingIn_isOk lines declaration
  rw [clean] at isOk
  rw [violation?_eq_findingIn, if_neg found]
  cases made : (rule.findingIn lines declaration).violation rule.profile [] with
  | error error =>
      rw [made] at isOk
      cases isOk
  | ok violation => exact ⟨violation, rfl, Finding.violation_tells made⟩

theorem violation?_isOk {rule : NamingRule} {declaration : Declaration} (found : rule.outcome declaration ≠ .skip)
    (lines : Option (List Text)) :
    (rule.violation? lines declaration).isOk = !Text.hasStray (contextOf declaration lines) := by
  rw [violation?_eq_findingIn, if_neg found, ← rule.findingIn_isOk]
  cases (rule.findingIn lines declaration).violation rule.profile [] with
  | error error => rfl
  | ok violation => rfl

theorem violation?_ne_ok {rule : NamingRule} {lines : Option (List Text)} {declaration : Declaration}
    (found : rule.outcome declaration ≠ .skip) (strays : Text.hasStray (contextOf declaration lines) = true)
    (result : Option Violation) : rule.violation? lines declaration ≠ .ok result := by
  intro made
  have isOk := violation?_isOk found lines
  rw [made, strays] at isOk
  cases isOk

/-- The rule fails only because of a stray byte in the text around a method. -/
theorem violation?_error {rule : NamingRule} {lines : Option (List Text)} {declaration : Declaration}
    {error : FindingError} (failed : rule.violation? lines declaration = .error error) :
    Text.hasStray (contextOf declaration lines) = true := by
  by_cases skips : rule.outcome declaration = .skip
  · rw [violation?_eq_findingIn, if_pos skips] at failed
    cases failed
  · have isOk := violation?_isOk skips lines
    rw [failed] at isOk
    change false = !_ at isOk
    simpa using isOk

/-- A violation is made only of a text without stray bytes. -/
theorem clean_of_violation {rule : NamingRule} {lines : Option (List Text)} {declaration : Declaration}
    {violation : Violation} (made : rule.violation? lines declaration = .ok (some violation)) :
    Text.hasStray (contextOf declaration lines) = false := by
  by_cases skips : rule.outcome declaration = .skip
  · rw [violation?_eq_findingIn, if_pos skips] at made
    cases made
  · have isOk := violation?_isOk skips lines
    rw [made] at isOk
    change true = !_ at isOk
    simpa using isOk

end Naming.NamingRule

end AccessorLint
