import Mathlib
import AccessorLint.Proofs.RenamedText
set_option autoImplicit false

/-!
Methods that are written in the regular way: only gaps stand before the `def` on its line, the name is ASCII, and a
parenthesis follows it.

The name of such a method fills a slot of the text, and renaming methods keeps the layout of all of them.
-/

namespace AccessorLint

/-- Whether a symbol is an ASCII character. -/
def Symbol.isAscii (symbol : Symbol) : Bool :=
  decide (symbol.code < 128)

namespace Source

open AccessorLint.Symbol (newline)
open AccessorLint.Text (WholeLines)

/-- Whether the last line of a text is made of gaps. -/
def endsInGaps (text : Text) : Bool :=
  (text.reverse.takeWhile fun symbol => symbol != newline).all isGap

/-- Whether a text starts with a parenthesis after gaps. -/
def opensAfterGaps (text : Text) : Bool :=
  (text.dropWhile isGap).head? == some (.glyph '(')

namespace Definition

/-- Whether only gaps stand before a definition on its line. -/
def startsLine (text : Text) (definition : Definition) : Bool :=
  endsInGaps (text.take definition.start)

/-- Whether a parenthesis follows the name of a definition. -/
def opensParenthesis (text : Text) (definition : Definition) : Bool :=
  opensAfterGaps (text.drop definition.header.nameEnd)

/-- Whether a definition is written in the regular way. -/
def isRegular (text : Text) (definition : Definition) : Bool :=
  definition.header.name.all Symbol.isAscii && definition.startsLine text && definition.opensParenthesis text

end Definition

/-! ### Gaps -/

theorem endsInGaps_cases {text : Text} (ends : endsInGaps text = true) :
    ∃ above indent, text = above ++ indent ∧ WholeLines above ∧ ∀ symbol ∈ indent, isGap symbol = true := by
  obtain ⟨line, further, reversed, lineEq, -, stops⟩ := exists_run (fun symbol => symbol != newline) text.reverse
  rw [endsInGaps, lineEq, List.all_eq_true] at ends
  refine ⟨further.reverse, line.reverse, ?_, ?_, fun symbol member => ends symbol (List.mem_reverse.mp member)⟩
  · rw [← List.reverse_append, ← reversed, List.reverse_reverse]
  · intro last member
    rw [List.getLast?_reverse] at member
    exact by simpa using stops last member

theorem endsInGaps_append {above indent : Text} (whole : WholeLines above)
    (gaps : ∀ symbol ∈ indent, isGap symbol = true) : endsInGaps (above ++ indent) = true := by
  rw [endsInGaps, List.reverse_append, takeWhile_run, List.all_eq_true]
  · exact fun symbol member => gaps symbol (List.mem_reverse.mp member)
  · intro symbol member
    exact bne_iff_ne.mpr (ne_newline_of_isGap (gaps symbol (List.mem_reverse.mp member)))
  · intro next member
    rw [List.head?_reverse] at member
    rw [whole next member]
    decide

/-- Behind a parenthesis nothing is seen of the line. -/
theorem endsInGaps_opened (far : Text) {near : Text} (opened : .glyph '(' ∈ near) :
    endsInGaps (far ++ near) = endsInGaps near := by
  have shown := List.mem_reverse.mpr opened
  rw [endsInGaps, endsInGaps, List.reverse_append]
  by_cases ends : newline ∈ near.reverse
  · rw [takeWhile_append_of_mem ends (by decide)]
  · have inside : ∀ symbol ∈ near.reverse, (symbol != newline) = true := by
      intro symbol member
      rw [bne_iff_ne]
      rintro rfl
      exact ends member
    have noGap : ∀ {text : Text}, .glyph '(' ∈ text → text.all isGap = false := by
      intro text member
      rw [Bool.eq_false_iff, Ne, List.all_eq_true]
      intro gaps
      cases gaps _ member
    rw [List.takeWhile_append_of_pos inside, List.takeWhile_eq_self_iff.mpr inside,
      noGap (List.mem_append_left _ shown), noGap shown]

theorem opensAfterGaps_cases {text : Text} (opens : opensAfterGaps text = true) :
    ∃ gaps below, text = gaps ++ .glyph '(' :: below ∧ ∀ symbol ∈ gaps, isGap symbol = true := by
  obtain ⟨gaps, later, rfl, -, inGaps, stops⟩ := exists_run isGap text
  rw [opensAfterGaps, dropWhile_run inGaps stops, beq_iff_eq] at opens
  obtain ⟨below, rfl⟩ := List.head?_eq_some_iff.mp opens
  exact ⟨gaps, below, rfl, inGaps⟩

theorem opensAfterGaps_line (line below : Text) :
    opensAfterGaps (line ++ newline :: below) = opensAfterGaps (line ++ [newline]) := by
  obtain ⟨gaps, later, rfl, -, inGaps, stops⟩ := exists_run isGap line
  have stopsAt : ∀ rest : Text, ∀ next ∈ (later ++ newline :: rest).head?, isGap next = false := by
    intro rest next member
    cases later with
    | nil =>
        cases member
        decide
    | cons symbol others => exact stops next member
  rw [opensAfterGaps, opensAfterGaps, List.append_assoc, List.append_assoc, dropWhile_run inGaps (stopsAt below),
    dropWhile_run inGaps (stopsAt [])]
  cases later with
  | nil => rfl
  | cons symbol others => rfl

/-! ### The slot of a definition -/

theorem eq_of_shown {text code : Text} (shows : List.Forall₂ ShownFor text code)
    (visible : ∀ symbol ∈ code, symbol.isBlank = false) : text = code := by
  induction shows with
  | nil => rfl
  | @cons original shown _ _ shownFor _ ih =>
      rw [List.forall_mem_cons] at visible
      rw [ih visible.2]
      rcases shownFor with rfl | rfl
      · rfl
      · rw [Blanking.isBlank_hidden] at visible
        cases visible.1

theorem newline_not_mem_of_shown {text code : Text} (shows : List.Forall₂ ShownFor text code)
    (absent : newline ∉ code) : newline ∉ text := by
  induction shows with
  | nil => exact absent
  | @cons original shown _ _ shownFor _ ih =>
      rw [List.mem_cons, not_or] at absent ⊢
      refine ⟨?_, ih absent.2⟩
      rintro rfl
      rcases shownFor with rfl | rfl <;> exact absent.1 rfl

/-- A definition in the regular way fills a slot with its name. -/
theorem Definition.exists_slot {text : Text} {definition : Definition} (member : definition ∈ all (blank text))
    (identifier : IsIdentifier definition.header.name) (starts : definition.startsLine text = true)
    (opens : definition.opensParenthesis text = true) :
    ∃ slot : Slot, text = slot.fill definition.header.name ∧ definition.start = slot.left.length ∧
      definition.header.nameBegin = slot.front.length ∧ slot.Visible definition.header.name := by
  obtain ⟨left, lead, rest, stands⟩ := exists_stands member
  obtain ⟨before, after, scan, textEq, size, -⟩ := stands.in_text identifier
  -- the `def` stands in the text as in the code
  obtain ⟨begun, rfl, begunSize⟩ : ∃ begun, before = begun ++ Text.ofString "def" ∧ begun.length = left.length := by
    have shows := blank_images text
    rw [stands.code] at shows
    nth_rewrite 1 [textEq] at shows
    have dropped := List.forall₂_drop_append _ _ _ shows
    rw [List.drop_append_of_le_length (by omega)] at dropped
    have taken := List.forall₂_take_append _ _ _ dropped
    have three : (before.drop left.length).length = (Text.ofString "def").length := by
      rw [List.length_drop, size]
      exact Nat.add_sub_cancel_left _ _
    rw [← three, List.take_left] at taken
    have defEq := eq_of_shown taken (by decide)
    refine ⟨before.take left.length, ?_, List.length_take_of_le (by omega)⟩
    rw [← defEq, List.take_append_drop]
  have behind : text.take definition.start = begun := by
    rw [textEq, stands.start, ← begunSize, List.append_assoc, List.take_left]
  have ahead : text.drop definition.header.nameEnd = after := by
    have regrouped : text = (begun ++ (Text.ofString "def" ++ (lead ++ definition.header.name))) ++ after := by
      rw [textEq]
      simp
    have nameEnd : definition.header.nameEnd =
        (begun ++ (Text.ofString "def" ++ (lead ++ definition.header.name))).length := by
      rw [stands.nameEnd, List.length_append, @List.length_append _ begun, begunSize]
    rw [nameEnd]
    nth_rewrite 1 [regrouped]
    exact List.drop_left
  rw [startsLine, behind] at starts
  rw [opensParenthesis, ahead] at opens
  obtain ⟨above, indent, rfl, whole, indentGaps⟩ := endsInGaps_cases starts
  obtain ⟨gaps, below, rfl, gapsGaps⟩ := opensAfterGaps_cases opens
  have isLead := stands.isLead
  have leftSize : (above ++ indent).length = left.length := begunSize
  rw [List.length_append] at begunSize
  have fillEq : text = Slot.fill ⟨above, indent, _, lead, gaps, below, whole, indentGaps, isLead, gapsGaps⟩
      definition.header.name := by
    rw [Slot.fill_eq]
    refine textEq.trans ?_
    simp
  refine ⟨_, fillEq, ?_, ?_, left.take above.length, left.drop above.length, rest, ?_, ?_, ?_⟩
  · rw [stands.start, Slot.left, leftSize]
  · rw [stands.nameBegin, Slot.front, Slot.left, List.length_append, @List.length_append _ (above ++ indent), leftSize]
  · rw [← List.append_assoc, List.take_append_drop, ← fillEq, stands.code]
  · exact List.length_take_of_le (by omega)
  · rw [List.length_drop]
    change _ = indent.length
    omega

namespace Slot

variable {slot : Slot}

/-! ### What stays regular -/

theorem Moved.startsLine {old new : Text} {first second : Definition} (moved : slot.Moved old new first second)
    (starts : first.startsLine (slot.fill old) = true) : second.startsLine (slot.fill new) = true := by
  have behind : ∀ {site : slot.Site} {name title : Text} {definition : Definition},
      site.Holds name title definition → (slot.fill name).take definition.start = site.start.left name := by
    intro site name title definition holds
    rw [holds.start, site.start.take_fill]
  unfold Definition.startsLine at starts ⊢
  cases moved with
  | head site start nameAt stop before after =>
      rw [behind after, start]
      exact endsInGaps_append slot.whole slot.indentGaps
  | other site title start nameAt stop before after =>
      rw [behind before] at starts
      rw [behind after]
      generalize site.start = mark at start starts
      cases start with
      | above left lines split => exact starts
      | below left right split opened =>
          rw [Mark.left, ← List.append_assoc, endsInGaps_opened _ opened] at starts ⊢
          exact starts

/-- A name above the head ends on the line on which it starts. -/
theorem name_above {left lines name : Text} (split : slot.above = left ++ lines) {definition : Definition}
    (member : definition ∈ Definition.all (blank (slot.fill name)))
    (begins : definition.header.nameBegin = left.length) :
    ∃ first others, lines = first ++ newline :: others ∧ definition.header.name.length ≤ first.length := by
  obtain ⟨before, lead, rest, stands⟩ := Definition.exists_stands member
  have shows := blank_images (slot.fill name)
  have regrouped : before ++ ("def" ++ (lead ++ (definition.header.name ++ rest))) =
      (before ++ (Text.ofString "def" ++ lead)) ++ (definition.header.name ++ rest) := by simp
  have fillEq : slot.fill name = left ++ (lines ++ slot.line name) := by
    simp [fill_eq, split, line, back]
  have nameBegin := stands.nameBegin
  rw [begins] at nameBegin
  rw [stands.code, regrouped, fillEq] at shows
  have behindShows : List.Forall₂ ShownFor left (before ++ (Text.ofString "def" ++ lead)) := by
    have taken := List.forall₂_take_append _ _ _ shows
    rwa [← nameBegin, List.take_left] at taken
  have aheadShows : List.Forall₂ ShownFor ((lines ++ slot.line name).take definition.header.name.length)
      definition.header.name := by
    have dropped := List.forall₂_drop_append _ _ _ shows
    rw [← nameBegin, List.drop_left] at dropped
    exact List.forall₂_take_append _ _ _ dropped
  rcases Mark.lines_cases split with rfl | ⟨first, others, absent, rfl⟩
  · -- the name cannot start a line: the lead before it ends with a gap or a dot
    exfalso
    obtain ⟨inner, last, leadEq, isLast⟩ := stands.isLead.last
    rw [leadEq, ← List.append_assoc, ← List.append_assoc] at behindShows
    have lastShows := List.forall₂_drop_append _ _ _ behindShows
    have absent : newline ∉ [last] := by
      rw [List.mem_singleton]
      rintro rfl
      rcases isLast with gap | dot
      · cases gap
      · cases dot
    have whole : WholeLines left := by
      rw [← List.append_nil left, ← split]
      exact slot.whole
    have nothing := (whole.drop _).eq_nil (newline_not_mem_of_shown lastShows absent)
    rw [nothing] at lastShows
    cases lastShows
  · refine ⟨first, others, rfl, ?_⟩
    by_contra longer
    refine newline_not_mem_of_shown aheadShows (newline_not_mem_name stands.named) ?_
    rw [List.append_assoc, List.cons_append, List.take_append]
    apply List.mem_append_right
    obtain ⟨more, moreEq⟩ : ∃ more, definition.header.name.length - first.length = more + 1 :=
      ⟨definition.header.name.length - first.length - 1, by omega⟩
    rw [moreEq, List.take_succ_cons]
    exact List.mem_cons_self ..

theorem Moved.opensParenthesis {old new : Text} {first second : Definition}
    (moved : slot.Moved old new first second) (member : first ∈ Definition.all (blank (slot.fill old)))
    (opens : first.opensParenthesis (slot.fill old) = true) : second.opensParenthesis (slot.fill new) = true := by
  have ahead : ∀ {site : slot.Site} {name title : Text} {definition : Definition},
      site.Holds name title definition →
        (slot.fill name).drop definition.header.nameEnd = (site.nameAt.right name).drop title.length := by
    intro site name title definition holds
    rw [holds.nameEnd, holds.nameBegin, holds.title, ← site.nameAt.left_append_right, List.drop_length_add_append]
  unfold Definition.opensParenthesis at opens ⊢
  cases moved with
  | head site start nameAt stop before after =>
      have opened : ∀ name, (slot.nameMark.right name).drop name.length = slot.back := fun name => List.drop_left
      rw [ahead before, nameAt, opened] at opens
      rw [ahead after, nameAt, opened]
      exact opens
  | other site title start nameAt stop before after =>
      have begins := before.nameBegin
      have titleEq := before.title
      rw [ahead before] at opens
      rw [ahead after]
      generalize site.nameAt = mark at nameAt opens begins
      cases nameAt with
      | below left right split opened => exact opens
      | above left lines split =>
          rw [Mark.above_left] at begins
          obtain ⟨line, others, rfl, within⟩ := name_above split member begins
          rw [titleEq] at within
          rw [Mark.above_right, List.append_assoc, List.cons_append, List.drop_append_of_le_length within,
            opensAfterGaps_line] at opens ⊢
          exact opens

/-- Renaming one method in the regular way keeps all of them regular. -/
theorem Moved.isRegular {old new : Text} {first second : Definition} (moved : slot.Moved old new first second)
    (ascii : new.all Symbol.isAscii = true) (member : first ∈ Definition.all (blank (slot.fill old)))
    (regular : first.isRegular (slot.fill old) = true) : second.isRegular (slot.fill new) = true := by
  simp only [Definition.isRegular, Bool.and_eq_true] at regular ⊢
  obtain ⟨⟨nameAscii, starts⟩, opens⟩ := regular
  refine ⟨⟨?_, moved.startsLine starts⟩, moved.opensParenthesis member opens⟩
  rcases moved.names with ⟨-, -, -, renamed⟩ | ⟨kept, -⟩
  · rw [renamed]
    exact ascii
  · rw [kept]
    exact nameAscii

end Slot

end Source

end AccessorLint
