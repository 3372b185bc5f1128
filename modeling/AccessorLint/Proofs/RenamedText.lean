import Mathlib
import AccessorLint.Source.Declaration
import AccessorLint.Proofs.RenamedDefinitions
set_option autoImplicit false

/-!
Texts in which one method is renamed.

The definitions that are found in the text of a slot are the same for two names, one for one.  They keep their
receivers, arguments and lines, and the source text of each is the same but for the name in the slot, if it is there.
-/

namespace AccessorLint.Source

open AccessorLint.Symbol (newline)

/-! ### Lines of offsets -/

private theorem countP_go (offset base : Nat) (text : Text) :
    (lineStarts.go base text).countP (fun start => decide (start ≤ offset)) =
      (text.take (offset - base)).count newline := by
  induction text generalizing base with
  | nil => simp [lineStarts.go]
  | cons symbol rest ih =>
      rcases Nat.lt_or_ge base offset with before | after
      · have next : offset - base = offset - (base + 1) + 1 := by omega
        rw [lineStarts.go, next, List.take_succ_cons]
        by_cases isNewline : symbol = newline
        · rw [if_pos isNewline, isNewline, List.count_cons_self, List.countP_cons_of_pos (by simpa using before), ih]
        · rw [if_neg isNewline, List.count_cons_of_ne isNewline, ih]
      · have nothing : offset - base = 0 := by omega
        have still : offset - (base + 1) = 0 := by omega
        have later := ih (base + 1)
        rw [still, List.take_zero] at later
        rw [lineStarts.go, nothing, List.take_zero]
        split_ifs
        · rw [List.countP_cons_of_neg (by simpa using after)]
          exact later
        · exact later

/-- The line of an offset is one more than the number of newlines before it. -/
theorem position_line (text : Text) (offset : Nat) :
    (position (lineStarts text) offset).1 = (text.take offset).count newline + 1 := by
  change (0 :: lineStarts.go 0 text).countP (fun start => decide (start ≤ offset)) = _
  rw [List.countP_cons_of_pos (by simp), countP_go, Nat.sub_zero]

theorem position_line_max (text : Text) (first second : Nat) :
    (position (lineStarts text) (max first second)).1 =
      max (position (lineStarts text) first).1 (position (lineStarts text) second).1 := by
  have ordered : ∀ {first second : Nat}, first ≤ second →
      (position (lineStarts text) first).1 ≤ (position (lineStarts text) second).1 := by
    intro first second before
    rw [position_line, position_line]
    exact Nat.succ_le_succ ((List.take_sublist_take_left before).count_le newline)
  rcases Nat.le_total first second with before | after
  · rw [Nat.max_eq_right before, Nat.max_eq_right (ordered before)]
  · rw [Nat.max_eq_left after, Nat.max_eq_left (ordered after)]

namespace Slot

variable {slot copy : Slot}

/-! ### Marks of copies -/

theorem Copies.left (copies : copy.Copies slot) : copy.left.length = slot.left.length := by
  rw [Slot.left, Slot.left, List.length_append, List.length_append, copies.above, copies.indent]

theorem Copies.front (copies : copy.Copies slot) : copy.front.length = slot.front.length := by
  simp only [Slot.front, List.length_append, copies.left, copies.lead]

theorem Copies.back (copies : copy.Copies slot) : copy.back.length = slot.back.length := by
  simp only [Slot.back, List.length_append, List.length_cons, copies.gaps, copies.below]

/-- The parenthesis after the name is the first below it. -/
theorem opens_of_mem {left right : Text} (split : slot.back = left ++ right) (opened : .glyph '(' ∈ left) :
    slot.gaps ++ [Symbol.glyph '('] <+: left := by
  have backEq : slot.back = (slot.gaps ++ [Symbol.glyph '(']) ++ slot.below := by simp [Slot.back]
  refine List.prefix_of_prefix_length_le (backEq ▸ List.prefix_append _ _) (split ▸ List.prefix_append _ _) ?_
  by_contra longer
  have inGaps : left <+: slot.gaps := by
    refine List.prefix_of_prefix_length_le (split ▸ List.prefix_append left right) (List.prefix_append _ _) ?_
    rw [List.length_append, List.length_singleton] at longer
    omega
  cases slot.gapsGaps _ (inGaps.subset opened)

/-- A mark outside the head in a copy is one in the text. -/
theorem Copies.outside (copies : copy.Copies slot) {mark : copy.Mark} (outside : mark.Outside) :
    ∃ origin : slot.Mark, origin.Outside ∧ ∀ name, (mark.left name).length = (origin.left name).length := by
  cases outside with
  | above left lines split =>
      have within : left.length ≤ slot.above.length := by
        rw [← copies.above, split, List.length_append]
        omega
      refine ⟨Mark.above (slot.above.take left.length) (slot.above.drop left.length)
        (List.take_append_drop _ _).symm, .above _ _ _, fun name => ?_⟩
      rw [Mark.above_left, Mark.above_left, List.length_take_of_le within]
  | below left right split opened =>
      have within : left.length ≤ slot.back.length := by
        rw [← copies.back, split, List.length_append]
        omega
      have reached : (slot.gaps ++ [Symbol.glyph '(']).length ≤ left.length := by
        rw [← copies.gaps]
        exact (opens_of_mem split opened).length_le
      refine ⟨.after (slot.back.take left.length) (slot.back.drop left.length) (List.take_append_drop _ _).symm,
        .below _ _ _ (Mark.opened_of_le reached), fun name => ?_⟩
      simp only [Mark.left, List.length_append, copies.front, List.length_take_of_le within]

/-- What holds at a site of a copy holds at a site of the text with marks at the same offsets. -/
theorem Site.Holds.of_copy {shown : copy.Site} {name title : Text} {definition : Definition}
    (holds : shown.Holds name title definition) {start nameAt stop : slot.Mark}
    (startEq : ∀ name, (shown.start.left name).length = (start.left name).length)
    (nameEq : ∀ name, (shown.nameAt.left name).length = (nameAt.left name).length)
    (stopEq : ∀ name, (shown.stop.left name).length = (stop.left name).length) :
    Site.Holds ⟨start, nameAt, stop, shown.receiver, shown.argumentCount⟩ name title definition where
  start := holds.start.trans (startEq name)
  nameBegin := holds.nameBegin.trans (nameEq name)
  nameEnd := holds.nameEnd
  stop := holds.stop.trans (stopEq name)
  title := holds.title
  receiver := holds.receiver
  argumentCount := holds.argumentCount

theorem Moved.of_copy (copies : copy.Copies slot) {old new : Text} {first second : Definition}
    (moved : copy.Moved old new first second) : slot.Moved old new first second := by
  cases moved with
  | head site start nameAt stop before after =>
      obtain ⟨stopMark, stopOutside, stopEq⟩ := copies.outside stop
      have startEq : ∀ name, (site.start.left name).length = (slot.headMark.left name).length := by
        intro name
        rw [start]
        exact copies.left
      have nameEq : ∀ name, (site.nameAt.left name).length = (slot.nameMark.left name).length := by
        intro name
        rw [nameAt]
        exact copies.front
      exact .head _ rfl rfl stopOutside (before.of_copy startEq nameEq stopEq) (after.of_copy startEq nameEq stopEq)
  | other site title start nameAt stop before after =>
      obtain ⟨startMark, startOutside, startEq⟩ := copies.outside start
      obtain ⟨nameMark, nameOutside, nameEq⟩ := copies.outside nameAt
      obtain ⟨stopMark, stopOutside, stopEq⟩ := copies.outside stop
      exact .other _ title startOutside nameOutside stopOutside (before.of_copy startEq nameEq stopEq)
        (after.of_copy startEq nameEq stopEq)

/-- The definitions in the text of a slot, for two names. -/
theorem definitions_fill (slot : Slot) {old new : Text} (isOld : Ordinary old) (isNew : Ordinary new)
    (visible : slot.Visible old) :
    List.Forall₂ (slot.Moved old new) (Definition.all (blank (slot.fill old)))
      (Definition.all (blank (slot.fill new))) := by
  obtain ⟨copy, copies, code⟩ := slot.exists_copy isOld visible
  rw [code old isOld, code new isNew]
  exact (copy.all_fill isOld isNew).imp fun _ _ moved => moved.of_copy copies

/-! ### Names -/

theorem above_lt_front (slot : Slot) : slot.above.length < slot.front.length := by
  simp only [front, Slot.left, List.length_append]
  change _ < _ + _ + (3 + _)
  omega

/-- The renamed method keeps its place.  The methods before it keep theirs, and those after it move by the difference
of the names. -/
theorem Moved.names {old new : Text} {first second : Definition} (moved : slot.Moved old new first second) :
    (first.header.nameBegin = slot.front.length ∧ second.header.nameBegin = slot.front.length ∧
        first.header.name = old ∧ second.header.name = new) ∨
      second.header.name = first.header.name ∧
        (first.header.nameBegin < slot.front.length ∧ second.header.nameBegin = first.header.nameBegin ∨
          slot.front.length + old.length < first.header.nameBegin ∧
            second.header.nameBegin + old.length = first.header.nameBegin + new.length) := by
  cases moved with
  | head site start nameAt stop before after =>
      left
      refine ⟨?_, ?_, before.title, after.title⟩
      · rw [before.nameBegin, nameAt]
        rfl
      · rw [after.nameBegin, nameAt]
        rfl
  | other site title start nameAt stop before after =>
      right
      refine ⟨after.title.trans before.title.symm, ?_⟩
      rw [before.nameBegin, after.nameBegin]
      generalize site.nameAt = mark at nameAt
      cases nameAt with
      | above left lines split =>
          left
          rw [Mark.above_left, Mark.above_left]
          have within := congrArg List.length split
          rw [List.length_append] at within
          exact ⟨by have := slot.above_lt_front; omega, rfl⟩
      | below left right split opened =>
          right
          have nonempty := List.length_pos_of_mem opened
          simp only [Mark.left, List.length_append]
          omega

/-! ### What is kept -/

theorem Mark.take_fill (mark : slot.Mark) (name : Text) :
    (slot.fill name).take (mark.left name).length = mark.left name := by
  rw [← mark.left_append_right, List.take_left]

theorem Mark.count_newline (mark : slot.Mark) {old new : Text} (isOld : Ordinary old) (isNew : Ordinary new) :
    (mark.left new).count newline = (mark.left old).count newline := by
  have none : ∀ {name : Text}, Ordinary name → name.count newline = 0 :=
    fun ordinary => List.count_eq_zero_of_not_mem (ordinary.not_mem (by decide) (by decide))
  cases mark with
  | before left right split => rfl
  | after left right split => simp only [Mark.left, List.count_append, none isOld, none isNew]

/-- The line of a mark is the same for all names. -/
theorem Mark.line (mark : slot.Mark) {old new : Text} (isOld : Ordinary old) (isNew : Ordinary new) :
    (position (lineStarts (slot.fill new)) (mark.left new).length).1 =
      (position (lineStarts (slot.fill old)) (mark.left old).length).1 := by
  rw [position_line, position_line, mark.take_fill, mark.take_fill, mark.count_newline isOld isNew]

/-- So is the line of the symbol before a mark. -/
theorem Mark.Outside.line_before {mark : slot.Mark} (outside : mark.Outside) {old new : Text} (isOld : Ordinary old)
    (isNew : Ordinary new) :
    (position (lineStarts (slot.fill new)) ((mark.left new).length - 1)).1 =
      (position (lineStarts (slot.fill old)) ((mark.left old).length - 1)).1 := by
  obtain ⟨previous, found⟩ : ∃ previous : slot.Mark, ∀ name,
      (mark.left name).length - 1 = (previous.left name).length := by
    cases outside with
    | above left lines split =>
        refine ⟨Mark.above left.dropLast (left.drop (left.length - 1) ++ lines) ?_, fun name => ?_⟩
        · rw [List.dropLast_eq_take, ← List.append_assoc, List.take_append_drop, split]
        · rw [Mark.above_left, Mark.above_left, List.length_dropLast]
    | below left right split opened =>
        have nonempty := List.length_pos_of_mem opened
        refine ⟨.after left.dropLast (left.drop (left.length - 1) ++ right) ?_, fun name => ?_⟩
        · rw [List.dropLast_eq_take, ← List.append_assoc, List.take_append_drop, split]
        · simp only [Mark.left, List.length_append, List.length_dropLast]
          omega
  rw [found, found, previous.line isOld isNew]

end Slot

/-- What a method keeps where methods are renamed. -/
structure Declaration.Keeps (before after : Declaration) : Prop where
  argumentCount : after.argumentCount = before.argumentCount
  receiver : after.receiver = before.receiver
  nameLine : after.nameRange.line = before.nameRange.line
  relatedLines : after.relatedLines = before.relatedLines

theorem Declaration.Keeps.refl (declaration : Declaration) : declaration.Keeps declaration :=
  ⟨rfl, rfl, rfl, rfl⟩

theorem Declaration.Keeps.trans {first second third : Declaration} (before : first.Keeps second)
    (after : second.Keeps third) : first.Keeps third where
  argumentCount := after.argumentCount.trans before.argumentCount
  receiver := after.receiver.trans before.receiver
  nameLine := after.nameLine.trans before.nameLine
  relatedLines := after.relatedLines.trans before.relatedLines

/-- A definition as the rules see it in a text. -/
def Definition.declared (text path : Text) (definition : Definition) : Declaration :=
  .ofDefinition text path (lineStarts text) definition

namespace Slot

variable {slot : Slot}

theorem keeps_of_holds {site : slot.Site} (stopOutside : site.stop.Outside) {old new oldTitle newTitle : Text}
    (isOld : Ordinary old) (isNew : Ordinary new) {first second : Definition} (before : site.Holds old oldTitle first)
    (after : site.Holds new newTitle second) (path : Text) :
    (first.declared (slot.fill old) path).Keeps (second.declared (slot.fill new) path) where
  argumentCount := after.argumentCount.trans before.argumentCount.symm
  receiver := after.receiver.trans before.receiver.symm
  nameLine := by
    change (position _ second.header.nameBegin).1 = (position _ first.header.nameBegin).1
    rw [after.nameBegin, before.nameBegin, site.nameAt.line isOld isNew]
  relatedLines := by
    change ((position _ second.start).1, (position _ (max second.start (second.stop - 1))).1) =
      ((position _ first.start).1, (position _ (max first.start (first.stop - 1))).1)
    rw [position_line_max, position_line_max, after.start, before.start, site.start.line isOld isNew, after.stop,
      before.stop, stopOutside.line_before isOld isNew]

theorem Moved.keeps {old new : Text} (isOld : Ordinary old) (isNew : Ordinary new) {first second : Definition}
    (moved : slot.Moved old new first second) (path : Text) :
    (first.declared (slot.fill old) path).Keeps (second.declared (slot.fill new) path) := by
  cases moved with
  | head site start nameAt stop before after => exact keeps_of_holds stop isOld isNew before after path
  | other site title start nameAt stop before after => exact keeps_of_holds stop isOld isNew before after path

/-! ### Source texts -/

/-- The text from a mark before the head to a mark outside it. -/
theorem between_before {left more : Text} (split : slot.front = left ++ (more ++ ("def" ++ slot.lead)))
    {stop : slot.Mark} (outside : stop.Outside) :
    (∃ between, ∀ name, (stop.left name).drop left.length = between) ∨
      ∃ below, ∀ name, (stop.left name).drop left.length =
        (more ++ (Text.ofString "def" ++ slot.lead)) ++ (name ++ (slot.gaps ++ Symbol.glyph '(' :: below)) := by
  cases outside with
  | above before lines splitStop => exact Or.inl ⟨before.drop left.length, fun name => rfl⟩
  | below before right splitStop opened =>
      right
      obtain ⟨below, rfl⟩ := opens_of_mem splitStop opened
      refine ⟨below, fun name => ?_⟩
      rw [Mark.left, split, List.append_assoc left, List.drop_left]
      simp

/-- The text from a mark below the head to a mark outside it is the same for all names. -/
theorem between_below {left right : Text} (split : slot.back = left ++ right) {stop : slot.Mark}
    (outside : stop.Outside) :
    ∃ between, ∀ name, (stop.left name).drop ((Mark.after left right split).left name).length = between := by
  cases outside with
  | above before lines splitStop =>
      refine ⟨[], fun name => List.drop_eq_nil_of_le ?_⟩
      have within := congrArg List.length splitStop
      rw [List.length_append] at within
      have before := slot.above_lt_front
      rw [Mark.above_left, Mark.left, List.length_append]
      omega
  | below before after splitStop opened =>
      refine ⟨before.drop left.length, fun name => ?_⟩
      rw [Mark.left, Mark.left, ← List.append_assoc, ← List.append_assoc, @List.length_append _ (slot.front ++ name),
        List.drop_length_add_append]

/-- The source text of a definition is kept, or it passes over the head and has the new name there. -/
theorem Moved.sourceText {old new : Text} {first second : Definition} (moved : slot.Moved old new first second)
    (path : Text) :
    (second.declared (slot.fill new) path).sourceText = (first.declared (slot.fill old) path).sourceText ∨
      ∃ front below,
        (first.declared (slot.fill old) path).sourceText =
            (front ++ (Text.ofString "def" ++ slot.lead)) ++ (old ++ (slot.gaps ++ Symbol.glyph '(' :: below)) ∧
          (second.declared (slot.fill new) path).sourceText =
            (front ++ (Text.ofString "def" ++ slot.lead)) ++ (new ++ (slot.gaps ++ Symbol.glyph '(' :: below)) := by
  have source : ∀ {site : slot.Site} {name title : Text} {definition : Definition},
      site.Holds name title definition → (definition.declared (slot.fill name) path).sourceText =
        (site.stop.left name).drop (site.start.left name).length := by
    intro site name title definition holds
    change ((slot.fill name).take definition.stop).drop definition.start = _
    rw [holds.start, holds.stop, site.stop.take_fill]
  have ofSame : ∀ {start stop : slot.Mark},
      (∃ between, ∀ name, (stop.left name).drop (start.left name).length = between) →
      (stop.left new).drop (start.left new).length = (stop.left old).drop (start.left old).length := by
    rintro start stop ⟨between, same⟩
    rw [same, same]
  cases moved with
  | head site start nameAt stop before after =>
      rw [source before, source after, start]
      rcases @between_before slot slot.left [] rfl _ stop with same | ⟨below, passes⟩
      · exact Or.inl (@ofSame slot.headMark _ same)
      · exact Or.inr ⟨[], below, passes old, passes new⟩
  | other site title start nameAt stop before after =>
      rw [source before, source after]
      generalize site.start = mark at start
      cases start with
      | below left right split opened => exact Or.inl (ofSame (between_below split stop))
      | above left lines split =>
          have frontEq : slot.front = left ++ ((lines ++ slot.indent) ++ ("def" ++ slot.lead)) := by
            simp [front, Slot.left, split]
          rcases between_before frontEq stop with same | ⟨below, passes⟩
          · exact Or.inl (@ofSame (Mark.above left lines split) _ same)
          · exact Or.inr ⟨lines ++ slot.indent, below, passes old, passes new⟩

end Slot

end AccessorLint.Source
