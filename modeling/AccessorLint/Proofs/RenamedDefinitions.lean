import Mathlib
import AccessorLint.Proofs.Marks
set_option autoImplicit false

/-!
The definitions of a filled slot.

For two names the code of a slot has the same definitions, one for one.  Each starts, is named and stops at the same
marks, and says the same apart from the name in the slot.
-/

namespace AccessorLint.Source

open AccessorLint.Symbol (newline)
open AccessorLint.Text (firstLine)

namespace Definition

/-- Whether a `def` stands between the text behind and the start of the text ahead. -/
def opens (behind ahead : Text) : Bool :=
  ahead.startsWith "def" && !behind.head?.any Symbol.isWord && !(ahead.drop 3).head?.any Symbol.isWord &&
    isKeywordPlace behind (ahead.drop 3)

/-- The number of symbols of the body after a head. -/
def bodyLength (endless : Bool) (behind body : Text) : Nat :=
  if endless then (firstLine body).length else Block.opened.extent behind body

theorem at?_eq (behind ahead : Text) :
    at? behind ahead =
      if opens behind ahead then
        (Header.read? ahead).map fun header =>
          { start := behind.length
            header := header.shift behind.length
            stop := behind.length + header.headerEnd + bodyLength header.endless
              ((ahead.take header.headerEnd).reverse ++ behind) (ahead.drop header.headerEnd) }
      else none := rfl

theorem opens_line (behind line below : Text) : opens behind (line ++ newline :: below) = opens behind line := by
  unfold opens
  rw [startsWith_stop (by decide)]
  cases starts : Text.startsWith line "def" with
  | false => simp only [Bool.false_and]
  | true =>
      have three : 3 ≤ line.length := (List.isPrefixOf_iff_prefix.mp starts).length_le
      have head : ((line.drop 3 ++ newline :: below).head?.any Symbol.isWord) = (line.drop 3).head?.any Symbol.isWord := by
        cases line.drop 3 with
        | nil => rfl
        | cons next others => rfl
      rw [List.drop_append_of_le_length three, head, isKeywordPlace_stop _ _ (by decide)]

theorem opens_opened {near : Text} (opened : .glyph '(' ∈ near) (far ahead : Text) :
    opens (near ++ far) ahead = opens near ahead := by
  unfold opens
  rw [Block.isKeywordPlace_opened opened, List.head?_append_of_ne_nil _ (List.ne_nil_of_mem opened)]

end Definition

namespace Slot

variable {slot : Slot}

/-- Where a definition stands in the text of a slot, and what its head says. -/
structure Site (slot : Slot) where
  start : slot.Mark
  nameAt : slot.Mark
  stop : slot.Mark
  receiver : Option Text
  argumentCount : Nat

/-- Whether a definition is at a site and has a title, where the slot is filled with a name. -/
structure Site.Holds (site : slot.Site) (name title : Text) (definition : Definition) : Prop where
  start : definition.start = (site.start.left name).length
  nameBegin : definition.header.nameBegin = (site.nameAt.left name).length
  nameEnd : definition.header.nameEnd = definition.header.nameBegin + definition.header.name.length
  stop : definition.stop = (site.stop.left name).length
  title : definition.header.name = title
  receiver : definition.header.receiver = site.receiver
  argumentCount : countArguments definition.header.parameters = site.argumentCount

/-- The end of the body of a method whose head ends outside the slot. -/
theorem body_outside {mark : slot.Mark} (outside : mark.Outside) (endless : Bool) :
    ∃ stop : slot.Mark, stop.Outside ∧ ∀ name, Ordinary name →
      (mark.left name).length + Definition.bodyLength endless (mark.left name).reverse (mark.right name) =
        (stop.left name).length := by
  cases endless with
  | true => exact mark.firstLine_outside outside
  | false => exact mark.extent_outside Block.opened outside

/-- The definition that starts where a heading is read. -/
theorem at?_heading {mark stop : slot.Mark} {heading : slot.Heading} {name : Text} {header : Header}
    (opens : Definition.opens (mark.left name).reverse (mark.right name) = true)
    (read : Header.read? (mark.right name) = some header) (reads : heading.Reads mark name header)
    (ends : (heading.stop.left name).length + Definition.bodyLength heading.endless (heading.stop.left name).reverse
      (heading.stop.right name) = (stop.left name).length) :
    ∃ definition, Definition.at? (mark.left name).reverse (mark.right name) = some definition ∧
      Site.Holds ⟨mark, heading.nameAt, stop, heading.receiver, heading.argumentCount⟩ name heading.title
        definition := by
  have ahead := Mark.drop_right reads.headerEnd
  have behind := Mark.take_right reads.headerEnd
  have stopEq : (mark.left name).reverse.length + header.headerEnd + Definition.bodyLength header.endless
      (((mark.right name).take header.headerEnd).reverse ++ (mark.left name).reverse)
      ((mark.right name).drop header.headerEnd) = (stop.left name).length := by
    rw [← List.reverse_append, behind, ahead, reads.endless, List.length_reverse, reads.headerEnd, ends]
  refine ⟨_, by rw [Definition.at?_eq, opens, if_pos rfl, read]; rfl, List.length_reverse, ?_, ?_, stopEq, reads.title,
    reads.receiver, reads.argumentCount⟩
  · change header.nameBegin + (mark.left name).reverse.length = _
    rw [List.length_reverse, Nat.add_comm, reads.nameBegin]
  · change header.nameEnd + _ = header.nameBegin + _ + header.name.length
    rw [reads.nameEnd]
    omega

/-- Whether a definition starts at a mark for all names or for none. -/
def Steady (mark : slot.Mark) : Prop :=
  (∀ name, Definition.at? (mark.left name).reverse (mark.right name) = none) ∨
    ∃ (site : slot.Site) (title : Text), site.start = mark ∧ site.nameAt.Outside ∧ site.stop.Outside ∧
      ∀ name, Ordinary name → ∃ definition, Definition.at? (mark.left name).reverse (mark.right name) = some definition ∧
        site.Holds name title definition

theorem steady_of_read {mark : slot.Mark} {opens : Bool}
    (opensEq : ∀ name, Definition.opens (mark.left name).reverse (mark.right name) = opens)
    (reading : (∀ name, Header.read? (mark.right name) = none) ∨
      ∃ heading : slot.Heading, heading.nameAt.Outside ∧ ∀ name, Ordinary name → ∃ header,
        Header.read? (mark.right name) = some header ∧ heading.Reads mark name header) : Steady mark := by
  cases opens with
  | false =>
      left
      intro name
      rw [Definition.at?_eq, opensEq, if_neg Bool.false_ne_true]
  | true =>
      rcases reading with none | ⟨heading, nameOutside, found⟩
      · left
        intro name
        exact Definition.at?_of_no_head (none name)
      · obtain ⟨stop, stopOutside, ends⟩ := body_outside heading.outside heading.endless
        refine Or.inr ⟨⟨mark, heading.nameAt, stop, heading.receiver, heading.argumentCount⟩, heading.title,
          rfl, nameOutside, stopOutside, fun name ordinary => ?_⟩
        obtain ⟨header, read, reads⟩ := found name ordinary
        exact at?_heading (opensEq name) read reads (ends name ordinary)

theorem steady_above {left lines : Text} (split : slot.above = left ++ lines) (more : lines ≠ []) :
    Steady (Mark.above left lines split) := by
  obtain ⟨opens, opensEq⟩ : ∃ opens, ∀ name,
      Definition.opens left.reverse ((Mark.above left lines split).right name) = opens := by
    obtain ⟨first, others, -, rfl⟩ := (Mark.lines_cases split).resolve_left more
    refine ⟨Definition.opens left.reverse first, fun name => ?_⟩
    rw [Mark.above_right, List.append_assoc, List.cons_append, Definition.opens_line]
  exact steady_of_read opensEq (Mark.read?_above split more)

theorem steady_below {left right : Text} (split : slot.back = left ++ right) (opened : .glyph '(' ∈ left) :
    Steady (Mark.after left right split) := by
  have opensEq : ∀ name, Definition.opens ((Mark.after left right split).left name).reverse
      ((Mark.after left right split).right name) = Definition.opens left.reverse right := by
    intro name
    have behind : ((Mark.after left right split).left name).reverse =
        left.reverse ++ (name.reverse ++ slot.front.reverse) := by simp [Mark.left]
    rw [behind, Definition.opens_opened (List.mem_reverse.mpr opened)]
    rfl
  exact steady_of_read opensEq (Mark.read?_below split opened)

/-! ### The definition of the slot -/

/-- The mark before the `def` of the slot. -/
def headMark (slot : Slot) : slot.Mark :=
  .before slot.left ("def" ++ slot.lead) rfl

/-- The mark before the name in the slot. -/
def nameMark (slot : Slot) : slot.Mark :=
  .before slot.front [] (List.append_nil _).symm

theorem opens_head (slot : Slot) (rest : Text) :
    Definition.opens slot.left.reverse ("def" ++ (slot.lead ++ rest)) = true := by
  have starts : Text.startsWith ("def" ++ (slot.lead ++ rest)) "def" = true :=
    List.isPrefixOf_iff_prefix.mpr (List.prefix_append _ _)
  have dropped : ("def" ++ (slot.lead ++ rest) : Text).drop 3 = slot.lead ++ rest := rfl
  have free : slot.left.reverse.head?.any Symbol.isWord = false := by
    cases head : slot.left.reverse.head? with
    | none => rfl
    | some last =>
        rcases slot.left_last last head with gap | rfl
        · exact isWord_of_isGap gap
        · decide
  have gapped : (slot.lead ++ rest).head?.any Symbol.isWord = false := by
    obtain ⟨gap, others, leadEq, isGap⟩ := slot.isLead.head
    rw [leadEq]
    exact isWord_of_isGap isGap
  rw [Definition.opens, starts, dropped, free, gapped, slot.isKeywordPlace_head]
  rfl

/-- In the slot there is a definition with the name. -/
theorem at?_head (slot : Slot) :
    ∃ site : slot.Site, site.start = slot.headMark ∧ site.nameAt = slot.nameMark ∧ site.stop.Outside ∧
      ∀ name, Ordinary name → ∃ definition,
        Definition.at? slot.left.reverse ("def" ++ (slot.lead ++ (name ++ slot.back))) = some definition ∧
          site.Holds name name definition := by
  obtain ⟨stop, outside, ends⟩ := body_outside slot.headStop_outside
    (Header.isEndless (slot.back.drop slot.headLength))
  refine ⟨⟨slot.headMark, slot.nameMark, stop, slot.receiver, countArguments (Header.parametersAt slot.back 0).1⟩,
    rfl, rfl, outside, fun name ordinary => ?_⟩
  have right : slot.headMark.right name = "def" ++ (slot.lead ++ (name ++ slot.back)) := by
    simp [headMark, Mark.right]
  have read := slot.read?_head ordinary
  rw [← right] at read ⊢
  refine @at?_heading slot slot.headMark stop
    ⟨slot.receiver, name, _, _, slot.nameMark, slot.headStop, slot.headStop_outside⟩ name _ ?_ read
    ⟨rfl, rfl, rfl, rfl, ?_, rfl, slot.head_reaches name⟩ (ends name ordinary)
  · rw [right]
    exact slot.opens_head _
  · change slot.left.length + (3 + slot.lead.length) = slot.front.length
    rw [front, List.length_append, List.length_append]
    rfl

/-! ### All definitions -/

/-- Whether two definitions are the same but for the name in the slot. -/
inductive Moved (slot : Slot) (old new : Text) (first second : Definition) : Prop where
  | head (site : slot.Site) (start : site.start = slot.headMark) (nameAt : site.nameAt = slot.nameMark)
      (stop : site.stop.Outside) (before : site.Holds old old first) (after : site.Holds new new second)
  | other (site : slot.Site) (title : Text) (start : site.start.Outside) (nameAt : site.nameAt.Outside)
      (stop : site.stop.Outside) (before : site.Holds old title first) (after : site.Holds new title second)

theorem moved_of_steady {mark : slot.Mark} (outside : mark.Outside) (steady : Steady mark) {old new : Text}
    (isOld : Ordinary old) (isNew : Ordinary new) :
    List.Forall₂ (slot.Moved old new)
      (Definition.at? (mark.left old).reverse (mark.right old)).toList
      (Definition.at? (mark.left new).reverse (mark.right new)).toList := by
  rcases steady with none | ⟨site, title, rfl, nameAt, stop, found⟩
  · rw [none, none]
    exact List.Forall₂.nil
  · obtain ⟨first, firstFound, before⟩ := found old isOld
    obtain ⟨second, secondFound, after⟩ := found new isNew
    rw [firstFound, secondFound]
    exact List.Forall₂.cons (.other site title outside nameAt stop before after) List.Forall₂.nil

/-- A stretch in which no definition starts. -/
theorem within_of_none {behind text rest : Text}
    (none : ∀ left symbol right, text = left ++ symbol :: right →
      Definition.at? (left.reverse ++ behind) (symbol :: right ++ rest) = none) :
    Definition.within behind (text ++ rest) = Definition.within (text.reverse ++ behind) rest := by
  induction text generalizing behind with
  | nil => rfl
  | cons symbol others ih =>
      have here := none [] symbol others rfl
      rw [List.cons_append, Definition.within, show Definition.at? behind (symbol :: (others ++ rest)) = .none from here,
        ih]
      · simp
      · intro left next right split
        have later := none (symbol :: left) next right (by rw [split]; rfl)
        simpa using later

theorem at?_of_head {behind : Text} {symbol : Symbol} (noD : symbol ≠ .glyph 'd') (rest : Text) :
    Definition.at? behind (symbol :: rest) = none := by
  rw [Definition.at?_eq, Definition.opens]
  have starts : Text.startsWith (symbol :: rest) "def" = false := by
    rw [Bool.eq_false_iff]
    intro starts
    obtain ⟨more, same⟩ := List.isPrefixOf_iff_prefix.mp starts
    exact noD (List.cons.inj same).1.symm
  rw [starts]
  rfl

/-- The definitions from the line of the slot on: that of the slot, and those below the parenthesis. -/
theorem within_line (slot : Slot) {name : Text} (ordinary : Ordinary name) :
    Definition.within slot.above.reverse (slot.line name) =
      (Definition.at? slot.left.reverse ("def" ++ (slot.lead ++ (name ++ slot.back)))).toList ++
        Definition.within (slot.front ++ (name ++ (slot.gaps ++ [Symbol.glyph '(']))).reverse slot.below := by
  have indent := @within_of_none slot.above.reverse slot.indent ("def" ++ (slot.lead ++ (name ++ slot.back))) (by
    intro left symbol right split
    apply at?_of_head
    rintro rfl
    cases slot.indentGaps (.glyph 'd') (by simp [split]))
  have head := @within_of_none (.glyph 'd' :: slot.left.reverse) ("ef" ++ (slot.lead ++ name)) slot.back (by
    intro left symbol right split
    have none := Definition.at?_inside slot.isLead ordinary (ordinary.named slot)
      (show "def" ++ (slot.lead ++ name) = (.glyph 'd' :: left) ++ symbol :: right from
        congrArg (List.cons (Symbol.glyph 'd')) split)
      (List.cons_ne_nil _ _) (List.cons_ne_nil _ _) slot.left.reverse
    simpa using none)
  have opens := @within_of_none (("ef" ++ (slot.lead ++ name)).reverse ++ .glyph 'd' :: slot.left.reverse)
    (slot.gaps ++ [Symbol.glyph '(']) slot.below (by
      intro left symbol right split
      apply at?_of_head
      rintro rfl
      have member : Symbol.glyph 'd' ∈ slot.gaps ++ [Symbol.glyph '('] := by simp [split]
      rcases List.mem_append.mp member with inGaps | isOpening
      · cases slot.gapsGaps _ inGaps
      · cases List.mem_singleton.mp isOpening)
  have lineEq : ("def" ++ (slot.lead ++ (name ++ slot.back)) : Text) =
      .glyph 'd' :: ((Text.ofString "ef" ++ (slot.lead ++ name)) ++ slot.back) := by simp [Text.ofString]
  have backEq : slot.back = (slot.gaps ++ [Symbol.glyph '(']) ++ slot.below := by simp [back]
  have leftEq : slot.left.reverse = slot.indent.reverse ++ slot.above.reverse := by simp [Slot.left]
  have behindEq : (slot.gaps ++ [Symbol.glyph '(']).reverse ++
      (("ef" ++ (slot.lead ++ name)).reverse ++ .glyph 'd' :: slot.left.reverse) =
      (slot.front ++ (name ++ (slot.gaps ++ [Symbol.glyph '(']))).reverse := by
    simp [front, Text.ofString]
  rw [line, indent, ← leftEq, lineEq, Definition.within, head, backEq, opens, behindEq]

/-- The definitions from a mark on: one that starts there, and those from the next symbol on. -/
theorem within_next {mark next : slot.Mark} {name : Text} {symbol : Symbol}
    (right : mark.right name = symbol :: next.right name) (left : next.left name = mark.left name ++ [symbol]) :
    Definition.within (mark.left name).reverse (mark.right name) =
      (Definition.at? (mark.left name).reverse (mark.right name)).toList ++
        Definition.within (next.left name).reverse (next.right name) := by
  rw [right, Definition.within, left, List.reverse_append]
  rfl

/-- The definitions from the line of the slot on, given those below the parenthesis. -/
theorem moved_line (slot : Slot) {old new : Text} (isOld : Ordinary old) (isNew : Ordinary new)
    (below : List.Forall₂ (slot.Moved old new)
      (Definition.within (slot.front ++ (old ++ (slot.gaps ++ [Symbol.glyph '(']))).reverse slot.below)
      (Definition.within (slot.front ++ (new ++ (slot.gaps ++ [Symbol.glyph '(']))).reverse slot.below)) :
    List.Forall₂ (slot.Moved old new) (Definition.within slot.above.reverse (slot.line old))
      (Definition.within slot.above.reverse (slot.line new)) := by
  rw [slot.within_line isOld, slot.within_line isNew]
  refine List.rel_append ?_ below
  obtain ⟨site, start, nameAt, stop, found⟩ := slot.at?_head
  obtain ⟨first, firstFound, before⟩ := found old isOld
  obtain ⟨second, secondFound, after⟩ := found new isNew
  rw [firstFound, secondFound]
  exact List.Forall₂.cons (.head site start nameAt stop before after) List.Forall₂.nil

/-- From a mark outside the head on, the definitions are the same for all names but for the one in the slot. -/
theorem within_outside {mark : slot.Mark} (outside : mark.Outside) {old new : Text} (isOld : Ordinary old)
    (isNew : Ordinary new) :
    List.Forall₂ (slot.Moved old new) (Definition.within (mark.left old).reverse (mark.right old))
      (Definition.within (mark.left new).reverse (mark.right new)) := by
  induction size : mark.size using Nat.strong_induction_on generalizing mark with
  | _ measure ih =>
      have onward : ∀ {next : slot.Mark} {symbol : Symbol}, next.Outside → Steady mark →
          (∀ name, mark.right name = symbol :: next.right name) → (∀ name, next.left name = mark.left name ++ [symbol]) →
          List.Forall₂ (slot.Moved old new) (Definition.within (mark.left old).reverse (mark.right old))
            (Definition.within (mark.left new).reverse (mark.right new)) := by
        intro next symbol nextOutside steady right left
        have smaller : next.size < measure := by
          rw [← size, Mark.size, Mark.size, right, List.length_cons]
          exact Nat.lt_succ_self _
        rw [within_next (right old) (left old), within_next (right new) (left new)]
        exact List.rel_append (moved_of_steady outside steady isOld isNew) (ih next.size smaller nextOutside rfl)
      cases outside with
      | below left right split opened =>
          cases right with
          | nil => exact List.Forall₂.nil
          | cons symbol others =>
              have further : slot.back = (left ++ [symbol]) ++ others := by
                rw [split]
                simp
              exact onward (.below _ _ further (List.mem_append_left _ opened)) (steady_below split opened)
                (fun name => rfl) (fun name => by simp [Mark.left])
      | above left lines split =>
          cases lines with
          | nil =>
              obtain rfl : slot.above = left := by rw [split, List.append_nil]
              have backEq : slot.back = (slot.gaps ++ [Symbol.glyph '(']) ++ slot.below := by simp [back]
              have smaller : (Mark.after _ _ backEq : slot.Mark).size < measure := by
                rw [← size]
                simp only [Mark.size, Mark.right, Mark.above, backEq, List.length_append, List.length_cons]
                omega
              have below := ih _ smaller (.below _ _ backEq (by simp)) rfl
              rw [Mark.above_right, Mark.above_right]
              exact slot.moved_line isOld isNew below
          | cons symbol others =>
              have further : slot.above = (left ++ [symbol]) ++ others := by
                rw [split]
                simp
              exact onward (.above _ _ further) (steady_above split (List.cons_ne_nil _ _)) (fun name => rfl)
                (fun name => rfl)

/-- The definitions of the code of a slot, for two names. -/
theorem all_fill (slot : Slot) {old new : Text} (isOld : Ordinary old) (isNew : Ordinary new) :
    List.Forall₂ (slot.Moved old new) (Definition.all (slot.fill old)) (Definition.all (slot.fill new)) := by
  have moved := within_outside (.above [] slot.above rfl) isOld isNew
  rw [Mark.above_right, Mark.above_right] at moved
  have fillEq : ∀ name, slot.fill name = slot.above ++ slot.line name := by
    intro name
    simp [fill, front, Slot.left, line]
  rw [fillEq, fillEq]
  exact moved

end Slot

end AccessorLint.Source
