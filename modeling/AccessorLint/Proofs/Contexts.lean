import Mathlib
import AccessorLint.Proofs.StableReports
set_option autoImplicit false

/-!
Contexts with and without the lines of the file.

A violation takes the text around a method from the lines of the file, or, where these are not given, from the source
text of the method.  The digest of a context does not see blanks at the ends of lines, so the two agree under it when
the method shares its first and its last line only with blanks.
-/

namespace AccessorLint

open AccessorLint.Symbol (newline)
open AccessorLint.Text (WholeLines firstLine)
open Naming (NamingRule)
open Source (Declaration Definition blank lineStarts position position_line)

namespace Text

/-- What stands on the line of an offset before it. -/
def lineBefore (text : Text) (offset : Nat) : Text :=
  (firstLine (text.take offset).reverse).reverse

theorem lineBefore_eq {above front : Text} (whole : WholeLines above) (absent : newline ∉ front) (rest : Text) :
    (above ++ (front ++ rest)).lineBefore (above ++ front).length = front := by
  have outside : newline ∉ front.reverse := fun member => absent (List.mem_reverse.mp member)
  rw [lineBefore, ← List.append_assoc, List.take_left, List.reverse_append]
  rcases List.eq_nil_or_concat' above with rfl | ⟨others, last, rfl⟩
  · rw [List.reverse_nil, List.append_nil, firstLine_of_not_mem outside, List.reverse_reverse]
  · rw [whole last (by simp), List.reverse_append, List.reverse_singleton, List.singleton_append,
      firstLine_append_newline outside, List.reverse_reverse]

/-- A text is a line, and nothing or a newline and more. -/
theorem exists_first_line (text : Text) :
    ∃ rest, text = firstLine text ++ rest ∧ ∀ next ∈ rest.head?, next = newline := by
  rcases line_cases text with absent | ⟨line, rest, absent, rfl⟩
  · refine ⟨[], ?_, ?_⟩
    · rw [firstLine_of_not_mem absent, List.append_nil]
    · intro next member
      cases member
  · refine ⟨newline :: rest, ?_, ?_⟩
    · rw [firstLine_append_newline absent]
    · intro next member
      cases member
      rfl

end Text

namespace Context

theorem squeezed_append_newline (left right : Text) :
    squeezed (left ++ newline :: right) = squeezed left ++ squeezed right := by
  rw [squeezed, Text.lines_append_newline, List.flatMap_append]
  rfl

theorem squeezed_line {line : Text} (absent : newline ∉ line) : squeezed line = line.trim := by
  rw [squeezed, Text.lines_of_not_mem absent, List.flatMap_singleton]

theorem squeezed_blanks_append {blanks : Text} (absent : newline ∉ blanks)
    (blank : ∀ symbol ∈ blanks, symbol.isBlank = true) (text : Text) : squeezed (blanks ++ text) = squeezed text := by
  rcases Text.line_cases text with none | ⟨line, rest, none, rfl⟩
  · rw [squeezed_line none, squeezed_line (by simp [absent, none]), Text.trim_blanks_append blank]
  · rw [← List.append_assoc, squeezed_append_newline, squeezed_append_newline, squeezed_line none,
      squeezed_line (by simp [absent, none]), Text.trim_blanks_append blank]

theorem squeezed_append_blanks (text : Text) {blanks : Text} (absent : newline ∉ blanks)
    (blank : ∀ symbol ∈ blanks, symbol.isBlank = true) : squeezed (text ++ blanks) = squeezed text := by
  induction text using Text.line_induction with
  | last line none => rw [squeezed_line none, squeezed_line (by simp [absent, none]), Text.trim_append_blanks _ blank]
  | line line rest none ih =>
      rw [List.append_assoc, List.cons_append, squeezed_append_newline, squeezed_append_newline, ih]

/-- The lines of a text, cut at their ends, are as good as the text. -/
theorem squeezed_unlines (text : Text) : squeezed (Text.unlines (text.lines.map Text.trimRight)) = squeezed text := by
  have nonempty : text.lines.map Text.trimRight ≠ [] := by
    rw [Ne, List.map_eq_nil_iff]
    exact Text.split_ne_nil newline text
  have absent : ∀ line ∈ text.lines.map Text.trimRight, newline ∉ line := by
    intro line member inside
    obtain ⟨original, inLines, rfl⟩ := List.mem_map.mp member
    exact Text.not_mem_of_mem_split inLines (Text.mem_of_mem_trimRight inside)
  have parts : (Text.unlines (text.lines.map Text.trimRight)).lines = text.lines.map Text.trimRight :=
    Text.split_joined nonempty absent
  rw [squeezed, parts, List.flatMap_map, squeezed]
  exact List.flatMap_congr fun line _ => Text.trim_trimRight line

theorem between_first (lines later : List Text) : between (lines ++ later) 1 lines.length = lines := by
  have size : ((lines.length : Int)).toNat = lines.length := Int.toNat_natCast _
  unfold between
  dsimp only
  rw [if_neg (by omega), size, List.take_left]
  rfl

/-- The lines of a segment that starts with a line and ends with one. -/
theorem between_lines {above : Text} (whole : WholeLines above) (segment : Text) {rest : Text}
    (ends : ∀ next ∈ rest.head?, next = newline) {first last : Nat} (firstEq : first = above.count newline + 1)
    (lastEq : last = above.count newline + segment.count newline + 1) :
    between (above ++ (segment ++ rest)).lines first last = segment.lines := by
  obtain ⟨upper, split, size⟩ := Text.lines_appended whole (segment ++ rest)
  obtain ⟨lower, lowerEq⟩ : ∃ lower, (segment ++ rest).lines = segment.lines ++ lower := by
    cases rest with
    | nil => exact ⟨[], by rw [List.append_nil, List.append_nil]⟩
    | cons next below =>
        rw [ends next rfl]
        exact ⟨Text.lines below, Text.lines_append_newline segment below⟩
  have length := Text.lines_length segment
  have shifted := between_appended upper (segment.lines ++ lower) (Int.le_refl 1)
    (Int.natCast_nonneg segment.lines.length)
  have firstShift : (first : Int) = 1 + upper.length := by omega
  have lastShift : (last : Int) = segment.lines.length + upper.length := by omega
  rw [split, lowerEq, firstShift, lastShift, shifted, between_first]

/-- A stretch of text and the lines on which it stands are alike under the digest, if it shares its first and its last
line only with blanks. -/
theorem squeezed_stretch {above indent front rest : Text} {final : Symbol} (whole : WholeLines above)
    (absent : newline ∉ indent) (before : ∀ symbol ∈ indent, symbol.isBlank = true)
    (after : final ≠ newline → ∀ symbol ∈ firstLine rest, symbol.isBlank = true) {first last : Nat}
    (firstEq : first = above.count newline + 1) (lastEq : last = above.count newline + front.count newline + 1) :
    squeezed (ofLines (Text.lines (above ++ (indent ++ ((front ++ [final]) ++ rest)))) first last) =
      squeezed (front ++ [final]) := by
  have inIndent := List.count_eq_zero_of_not_mem absent
  by_cases isNewline : final = newline
  · -- the last line ends with the stretch, and the newline leaves nothing that counts
    have regrouped : above ++ (indent ++ ((front ++ [final]) ++ rest)) =
        above ++ ((indent ++ front) ++ newline :: rest) := by simp [isNewline]
    have count : (indent ++ front).count newline = front.count newline := by
      rw [List.count_append, inIndent, Nat.zero_add]
    have lines : between (Text.lines (above ++ ((indent ++ front) ++ newline :: rest))) first last =
        Text.lines (indent ++ front) :=
      between_lines whole (indent ++ front) (by simp) firstEq (by rw [count, lastEq])
    rw [regrouped, ofLines, lines, squeezed_unlines, squeezed_blanks_append absent before, isNewline,
      squeezed_append_newline]
    exact (List.append_nil _).symm
  · -- the rest of the last line belongs to the context too
    obtain ⟨below, split, ends⟩ := Text.exists_first_line rest
    have regrouped : above ++ (indent ++ ((front ++ [final]) ++ rest)) =
        above ++ ((indent ++ ((front ++ [final]) ++ firstLine rest)) ++ below) := by
      simp only [List.append_assoc]
      rw [← split]
    have outside := Text.newline_not_mem_firstLine rest
    have count : (indent ++ ((front ++ [final]) ++ firstLine rest)).count newline = front.count newline := by
      rw [List.count_append, List.count_append, List.count_append, inIndent, List.count_eq_zero_of_not_mem outside,
        List.count_singleton, if_neg (by simpa using isNewline)]
      omega
    have lines :
        between (Text.lines (above ++ ((indent ++ ((front ++ [final]) ++ firstLine rest)) ++ below))) first last =
          Text.lines (indent ++ ((front ++ [final]) ++ firstLine rest)) :=
      between_lines whole _ ends firstEq (by rw [count, lastEq])
    rw [regrouped, ofLines, lines, squeezed_unlines, squeezed_blanks_append absent before,
      squeezed_append_blanks _ outside (after isNewline)]

theorem hash_congr {first second : Text} (same : squeezed first = squeezed second) : hash first = hash second := by
  unfold hash Text.digest
  rw [same]

end Context

/-! ### Violations -/

/-- Contexts that are alike under the digest make violations that differ only in the context. -/
theorem Finding.violation_recontext (finding : Finding) {first second : Text}
    (same : Context.squeezed first = Context.squeezed second) (profile : RuleProfile) (lines : List Text) :
    { finding with context := some second }.violation profile lines =
      ({ finding with context := some first }.violation profile lines).map
        fun violation : Violation => { violation with context := some second } := by
  unfold violation
  dsimp only [contextIn, Option.getD_some]
  rw [Context.hash_congr same]
  cases Template.fill finding.kind.template finding.bindings with
  | error error => rfl
  | ok message =>
      cases Context.hash second with
      | error error => rfl
      | ok digest => rfl

namespace Source.Definition

/-- What stands before a definition on its first line. -/
def before (definition : Definition) (text : Text) : Text :=
  text.lineBefore definition.start

/-- What stands behind a definition on its last line, the one of its last symbol. -/
def behind (definition : Definition) (text : Text) : Text :=
  (firstLine (text.drop (definition.stop - 1))).tail

/-- The lines of a text at a definition: whole lines above it, what stands before it on its first line, and its symbols,
the last one apart. -/
structure Cut (definition : Definition) (text above indent front : Text) (final : Symbol) (rest : Text) : Prop where
  textEq : text = (above ++ indent) ++ ((front ++ [final]) ++ rest)
  whole : WholeLines above
  absent : newline ∉ indent
  start : definition.start = (above ++ indent).length
  stop : definition.stop = definition.start + front.length + 1

theorem exists_cut {text : Text} {definition : Definition} (member : definition ∈ all (blank text)) :
    ∃ above indent front final rest, definition.Cut text above indent front final rest := by
  have describes := definition.describes member []
  have order : definition.start < definition.stop :=
    (describes.start_lt.trans describes.name_lt).trans_le describes.name_le
  have inside := describes.stop_le
  have nonempty : (text.take definition.stop).drop definition.start ≠ [] := by
    rw [Ne, List.drop_eq_nil_iff, List.length_take]
    omega
  obtain ⟨front, final, cut⟩ := (List.eq_nil_or_concat' _).resolve_left nonempty
  obtain ⟨above, indent, left, whole, absent⟩ := Text.exists_last_line (text.take definition.start)
  have size := congrArg List.length cut
  rw [List.length_drop, List.length_take, List.length_append, List.length_singleton] at size
  refine ⟨above, indent, front, final, text.drop definition.stop, ?_, whole, absent, ?_, ?_⟩
  · have taken : (text.take definition.stop).take definition.start = text.take definition.start := by
      rw [List.take_take, min_eq_left order.le]
    rw [← cut, ← left, ← List.append_assoc, ← taken, List.take_append_drop, List.take_append_drop]
  · rw [← left, List.length_take]
    omega
  · omega

namespace Cut

variable {definition : Definition} {text above indent front rest : Text} {final : Symbol}

/-- The text around the last symbol of the definition. -/
theorem textEq_final (cut : definition.Cut text above indent front final rest) :
    text = ((above ++ indent) ++ front) ++ final :: rest := by
  rw [cut.textEq]
  simp

theorem stop_eq (cut : definition.Cut text above indent front final rest) :
    definition.stop = ((above ++ indent) ++ front).length + 1 := by
  rw [cut.stop, cut.start, @List.length_append _ (above ++ indent)]

theorem before_eq (cut : definition.Cut text above indent front final rest) : definition.before text = indent := by
  rw [before, cut.start, cut.textEq, List.append_assoc, Text.lineBefore_eq cut.whole cut.absent]

theorem behind_eq (cut : definition.Cut text above indent front final rest) (inLine : final ≠ newline) :
    definition.behind text = firstLine rest := by
  rw [behind, cut.stop_eq, Nat.add_sub_cancel, cut.textEq_final, List.drop_left, firstLine,
    List.takeWhile_cons_of_pos (by simpa using inLine)]
  rfl

theorem sourceText_eq (cut : definition.Cut text above indent front final rest) (path : Text) :
    (definition.declared text path).sourceText = front ++ [final] := by
  change (text.take definition.stop).drop definition.start = _
  have size : front.length + 1 = (front ++ [final]).length := by rw [List.length_append, List.length_singleton]
  rw [cut.stop, cut.start, Nat.add_assoc, size, cut.textEq, List.take_length_add_append, List.take_left, List.drop_left]

theorem first_eq (cut : definition.Cut text above indent front final rest) (path : Text) :
    (definition.declared text path).relatedLines.1 = above.count newline + 1 := by
  change (position _ definition.start).1 = _
  rw [position_line, cut.start, cut.textEq, List.take_left, List.count_append, List.count_eq_zero_of_not_mem cut.absent,
    Nat.add_zero]

theorem last_eq (cut : definition.Cut text above indent front final rest) (path : Text) :
    (definition.declared text path).relatedLines.2 = above.count newline + front.count newline + 1 := by
  have later : definition.start ≤ definition.stop - 1 := by
    rw [cut.stop]
    omega
  change (position _ (max definition.start (definition.stop - 1))).1 = _
  rw [max_eq_right later, position_line, cut.stop_eq, Nat.add_sub_cancel, cut.textEq_final, List.take_left,
    List.count_append, List.count_append, List.count_eq_zero_of_not_mem cut.absent]
  omega

end Cut

/-- The source text of a method and its lines are alike under the digest. -/
theorem squeezed_declared {text : Text} {definition : Definition} (member : definition ∈ all (blank text))
    (path : Text) (blankBefore : ∀ symbol ∈ definition.before text, symbol.isBlank = true)
    (blankBehind : ∀ symbol ∈ definition.behind text, symbol.isBlank = true) :
    let declaration := definition.declared text path
    Context.squeezed (Context.ofLines text.lines declaration.relatedLines.1 declaration.relatedLines.2) =
      Context.squeezed declaration.sourceText := by
  obtain ⟨above, indent, front, final, rest, cut⟩ := exists_cut member
  rw [cut.before_eq] at blankBefore
  have afterFinal : final ≠ newline → ∀ symbol ∈ firstLine rest, symbol.isBlank = true := by
    intro inLine
    rw [← cut.behind_eq inLine]
    exact blankBehind
  have alike := Context.squeezed_stretch cut.whole cut.absent blankBefore afterFinal (cut.first_eq path)
    (cut.last_eq path)
  rw [← List.append_assoc, ← cut.textEq] at alike
  dsimp only
  rw [alike, cut.sourceText_eq]

end Source.Definition

/-- A method that shares its first and its last line only with blanks is known by one digest and one identity, whether
the text around it is cut from the lines of the file or taken from its source. -/
theorem violations_agree_but_for_context {text : Text} (clean : Text.hasStray text = false) {definition : Definition}
    (member : definition ∈ Definition.all (blank text))
    (blankBefore : ∀ symbol ∈ definition.before text, symbol.isBlank = true)
    (blankBehind : ∀ symbol ∈ definition.behind text, symbol.isBlank = true) (path : Text) {rule : NamingRule}
    (flagged : rule.outcome (definition.declared text path) ≠ .skip) :
    let declaration := definition.declared text path
    let cut := Context.ofLines text.lines declaration.relatedLines.1 declaration.relatedLines.2
    ∃ alone within : Violation,
      rule.violation? none declaration = .ok (some alone) ∧
        rule.violation? (some text.lines) declaration = .ok (some within) ∧
        alone.context = some declaration.sourceText ∧ within.context = some cut ∧
        Context.squeezed cut = Context.squeezed declaration.sourceText ∧
        within.codeHash = alone.codeHash ∧ within.id = alone.id ∧
        within = { alone with context := within.context } := by
  intro declaration cut
  have same : Context.squeezed cut = Context.squeezed declaration.sourceText :=
    definition.squeezed_declared member path blankBefore blankBehind
  have sourceClean : Text.hasStray declaration.sourceText = false := by
    rw [Text.hasStray, List.any_eq_false] at clean ⊢
    exact fun symbol inside => clean symbol (List.mem_of_mem_take (List.mem_of_mem_drop inside))
  obtain ⟨alone, made, tells⟩ := @NamingRule.violation?_clean rule none declaration flagged sourceClean
  have again : (rule.findingIn (some text.lines) declaration).violation rule.profile [] =
      ((rule.findingIn none declaration).violation rule.profile []).map
        fun violation : Violation => { violation with context := some cut } :=
    (rule.findingOf declaration).violation_recontext same.symm rule.profile []
  refine ⟨alone, { alone with context := some cut }, made, ?_, tells.context, rfl, same, rfl, rfl, rfl⟩
  rw [NamingRule.violation?_eq_findingIn, if_neg flagged] at made ⊢
  rw [again]
  cases result : (rule.findingIn none declaration).violation rule.profile [] with
  | error error =>
      rw [result] at made
      cases made
  | ok violation =>
      rw [result] at made
      cases made
      rfl

/-- The contexts of an indented method differ, and its identity is one. -/
theorem indented_setter_known_by_one_identity :
    let text : Text := "  def set_x(a)\r\n    a \r\n  end \r\nz\n"
    ∃ (rule : NamingRule) (declaration : Declaration) (alone within : Violation),
      NamingRule.ofSettings .default none = .ok rule ∧ Declaration.scan text "x.rb" = [declaration] ∧
        rule.violation? none declaration = .ok (some alone) ∧
        rule.violation? (some text.lines) declaration = .ok (some within) ∧
        alone.context = some ("def set_x(a)\r\n    a \r\n  end" : Text) ∧
        within.context = some ("  def set_x(a)\n    a\n  end" : Text) ∧
        within.id = alone.id := by
  intro text
  obtain ⟨definition, found⟩ : ∃ definition, Definition.all (blank text) = [definition] :=
    List.length_eq_one_iff.mp (by decide +kernel)
  have member : definition ∈ Definition.all (blank text) := by
    rw [found]
    exact List.mem_singleton_self _
  obtain ⟨rule, made, flags⟩ : ∃ rule, NamingRule.ofSettings .default none = .ok rule ∧
      ∀ definition ∈ Definition.all (blank text), rule.outcome (definition.declared text "x.rb") ≠ .skip :=
    ⟨_, rfl, by decide +kernel⟩
  have contexts : ∀ definition ∈ Definition.all (blank text),
      (definition.declared text "x.rb").sourceText = "def set_x(a)\r\n    a \r\n  end" ∧
        Context.ofLines text.lines (definition.declared text "x.rb").relatedLines.1
          (definition.declared text "x.rb").relatedLines.2 = "  def set_x(a)\n    a\n  end" := by decide +kernel
  have blanks : ∀ definition ∈ Definition.all (blank text),
      (∀ symbol ∈ definition.before text, symbol.isBlank = true) ∧
        ∀ symbol ∈ definition.behind text, symbol.isBlank = true := by decide +kernel
  obtain ⟨source, cut⟩ := contexts definition member
  obtain ⟨blankBefore, blankBehind⟩ := blanks definition member
  obtain ⟨alone, within, first, second, aloneContext, withinContext, -, -, sameId, -⟩ :=
    violations_agree_but_for_context (by decide) member blankBefore blankBehind "x.rb"
      (flags definition member)
  refine ⟨rule, _, alone, within, made, ?_, first, second, ?_, ?_, sameId⟩
  · rw [Declaration.scan, found]
    rfl
  · rw [aloneContext, source]
  · rw [withinContext, cut]

end AccessorLint
