import Mathlib
import AccessorLint.Proofs.Slot
import AccessorLint.Proofs.LineReading
set_option autoImplicit false

/-!
Reading the code of a filled slot, for all names at once.

A mark is a place in the text of a slot that is given without the name.  What is read from a mark outside the head leads
to another such mark, the same for all names: heads, parameters and blocks above the slot end above it or pass over it
as a whole, and below it nothing sees the name.
-/

namespace AccessorLint.Source

open AccessorLint.Symbol (newline)
open AccessorLint.Text (WholeLines firstLine)

namespace Slot

variable {slot : Slot}

/-- The line of the head and the lines below it. -/
def line (slot : Slot) (name : Text) : Text :=
  slot.indent ++ ("def" ++ (slot.lead ++ (name ++ slot.back)))

/-- A place in the text of a slot, before the name or after it. -/
inductive Mark (slot : Slot) where
  | before (left right : Text) (split : slot.front = left ++ right)
  | after (left right : Text) (split : slot.back = left ++ right)

namespace Mark

def left : slot.Mark → Text → Text
  | before left _ _, _ => left
  | after left _ _, name => slot.front ++ (name ++ left)

def right : slot.Mark → Text → Text
  | before _ right _, name => right ++ (name ++ slot.back)
  | after _ right _, _ => right

theorem left_append_right (mark : slot.Mark) (name : Text) : mark.left name ++ mark.right name = slot.fill name := by
  cases mark with
  | before left right split => rw [Mark.left, Mark.right, ← List.append_assoc, ← split, fill]
  | after left right split =>
      rw [Mark.left, Mark.right, fill, split]
      simp

/-- The number of symbols after a mark, without the name. -/
def size (mark : slot.Mark) : Nat :=
  (mark.right []).length

theorem drop_right {mark stop : slot.Mark} {name : Text} {length : Nat}
    (reaches : (mark.left name).length + length = (stop.left name).length) :
    (mark.right name).drop length = stop.right name := by
  have same := (mark.left_append_right name).trans (stop.left_append_right name).symm
  have dropped := congrArg (List.drop (stop.left name).length) same
  rwa [List.drop_left, ← reaches, List.drop_length_add_append] at dropped

theorem take_right {mark stop : slot.Mark} {name : Text} {length : Nat}
    (reaches : (mark.left name).length + length = (stop.left name).length) :
    mark.left name ++ (mark.right name).take length = stop.left name := by
  have same := (mark.left_append_right name).trans (stop.left_append_right name).symm
  have taken := congrArg (List.take (stop.left name).length) same
  rwa [List.take_left, ← reaches, List.take_length_add_append] at taken

/-- A mark above the line of the head. -/
def above (left lines : Text) (split : slot.above = left ++ lines) : slot.Mark :=
  .before left (lines ++ (slot.indent ++ ("def" ++ slot.lead))) (by simp [front, Slot.left, split])

theorem above_left (left lines : Text) (split : slot.above = left ++ lines) (name : Text) :
    (above left lines split).left name = left := rfl

theorem above_right (left lines : Text) (split : slot.above = left ++ lines) (name : Text) :
    (above left lines split).right name = lines ++ slot.line name := by
  simp [above, right, line]

theorem above_whole {left lines : Text} (split : slot.above = left ++ lines) : WholeLines lines :=
  WholeLines.of_append (split ▸ slot.whole)

/-- Whether a mark stands above the line of the head, or below the parenthesis that opens the parameters. -/
inductive Outside : slot.Mark → Prop where
  | above (left lines : Text) (split : slot.above = left ++ lines) : Outside (Mark.above left lines split)
  | below (left right : Text) (split : slot.back = left ++ right) (opened : .glyph '(' ∈ left) :
      Outside (.after left right split)

/-- Lines above the head are none, or a line and others. -/
theorem lines_cases {left lines : Text} (split : slot.above = left ++ lines) :
    lines = [] ∨ ∃ first others, newline ∉ first ∧ lines = first ++ newline :: others := by
  rcases Text.line_cases lines with absent | found
  · exact Or.inl ((above_whole split).eq_nil absent)
  · exact Or.inr found

/-- A symbol that is no gap, word, colon, dot or `=` does not stand in the head. -/
theorem not_mem_head {symbol : Symbol} (noGap : isGap symbol = false) (noPart : isPathPart symbol = false)
    (noDot : symbol ≠ .glyph '.') : symbol ∉ slot.indent ++ ("def" ++ slot.lead) := by
  simp only [List.mem_append, not_or]
  refine ⟨?_, ?_, slot.isLead.not_mem noGap noPart noDot⟩
  · intro member
    rw [slot.indentGaps symbol member] at noGap
    cases noGap
  · intro member
    have word := isPathPart_of_isWord
      ((by decide : ∀ symbol ∈ Text.ofString "def", symbol.isWord = true) symbol member)
    rw [noPart] at word
    cases word

/-! ### The rest of a line -/

theorem isEndless_outside {mark : slot.Mark} (outside : mark.Outside) :
    ∃ endless, ∀ name, Header.isEndless (mark.right name) = endless := by
  cases outside with
  | below left right split opened => exact ⟨Header.isEndless right, fun name => rfl⟩
  | above left lines split =>
      rcases lines_cases split with rfl | ⟨first, others, absent, rfl⟩
      · refine ⟨false, fun name => ?_⟩
        rw [above_right, List.nil_append, line, Header.isEndless, dropWhile_run slot.indentGaps]
        · rfl
        · intro next member
          cases member
          decide
      · refine ⟨Header.isEndless first, fun name => ?_⟩
        rw [above_right, List.append_assoc, List.cons_append, Header.isEndless_line]

/-- The end of the line from a mark outside the head. -/
theorem firstLine_outside {mark : slot.Mark} (outside : mark.Outside) :
    ∃ stop : slot.Mark, stop.Outside ∧ ∀ name, Ordinary name →
      (mark.left name).length + (firstLine (mark.right name)).length = (stop.left name).length := by
  cases outside with
  | below left right split opened =>
      obtain ⟨later, rightEq⟩ : ∃ later, right = firstLine right ++ later :=
        (List.takeWhile_prefix (l := right) fun symbol => symbol != newline).imp fun _ same => same.symm
      refine ⟨.after (left ++ firstLine right) later (by rw [List.append_assoc, ← rightEq, split]), .below _ _ _
        (List.mem_append_left _ opened), fun name ordinary => ?_⟩
      simp only [Mark.left, Mark.right, List.length_append]
      omega
  | above left lines split =>
      rcases lines_cases split with rfl | ⟨first, others, absent, rfl⟩
      · obtain ⟨later, backEq⟩ : ∃ later, slot.back = firstLine slot.back ++ later :=
          (List.takeWhile_prefix (l := slot.back) fun symbol => symbol != newline).imp fun _ same => same.symm
        have opened : .glyph '(' ∈ firstLine slot.back :=
          Text.mem_firstLine (fun member => ne_newline_of_isGap (slot.gapsGaps _ member) rfl) (by decide)
        refine ⟨.after (firstLine slot.back) later backEq, .below _ _ _ opened, fun name ordinary => ?_⟩
        have head : newline ∉ slot.indent ++ ("def" ++ slot.lead) ++ name := by
          rw [List.mem_append, not_or]
          exact ⟨not_mem_head (by decide) (by decide) (by decide), ordinary.not_mem (by decide) (by decide)⟩
        have lineEq : slot.line name = (slot.indent ++ ("def" ++ slot.lead) ++ name) ++ slot.back := by simp [line]
        rw [List.append_nil] at split
        rw [above_right, List.nil_append, lineEq, Text.firstLine_append head, above_left, ← split]
        simp only [Mark.left, front, Slot.left, List.length_append]
        omega
      · refine ⟨above (left ++ first) (newline :: others) (by rw [split, List.append_assoc]), .above _ _ _,
          fun name ordinary => ?_⟩
        rw [above_right, above_left, above_left, List.append_assoc, List.cons_append,
          Text.firstLine_append_newline absent, List.length_append]

/-! ### Parameters -/

/-- Parentheses that open above the head close above it, or are still open after it. -/
theorem closing_outside (slot : Slot) (lines : Text) (depth : Int) :
    (∃ front back, lines = front ++ .glyph ')' :: back ∧ ∀ name,
      closingSpan (.glyph '(') (.glyph ')') depth (lines ++ slot.line name) = front.length) ∨
      ∃ length, (slot.gaps ++ [Symbol.glyph '(']).length ≤ length ∧ length ≤ slot.back.length ∧ ∀ name, Ordinary name →
        closingSpan (.glyph '(') (.glyph ')') depth (lines ++ slot.line name) =
          (lines ++ (slot.indent ++ ("def" ++ slot.lead)) ++ name).length + length := by
  rcases closingSpan_append (.glyph '(') (.glyph ')') depth lines with ⟨front, back, linesEq, same⟩ | ⟨inner, same⟩
  · exact Or.inl ⟨front, back, linesEq, fun name => same _⟩
  · right
    refine ⟨closingSpan (.glyph '(') (.glyph ')') inner slot.back, ?_, closingSpan_le _ _ _ _, ?_⟩
    · rw [back, closingSpan_skip inner (fun member => by cases slot.gapsGaps _ member)
        (fun member => by cases slot.gapsGaps _ member), closingSpan, if_pos rfl, List.length_append,
        List.length_singleton]
      omega
    · intro name ordinary
      have lineEq : slot.line name = (slot.indent ++ ("def" ++ slot.lead) ++ name) ++ slot.back := by simp [line]
      rw [same, lineEq, closingSpan_skip inner, List.append_assoc lines, @List.length_append _ lines]
      · omega
      · rw [List.mem_append, not_or]
        exact ⟨not_mem_head (by decide) (by decide) (by decide), ordinary.not_mem (by decide) (by decide)⟩
      · rw [List.mem_append, not_or]
        exact ⟨not_mem_head (by decide) (by decide) (by decide), ordinary.not_mem (by decide) (by decide)⟩

theorem opened_of_le {length : Nat} (reached : (slot.gaps ++ [Symbol.glyph '(']).length ≤ length) :
    .glyph '(' ∈ slot.back.take length := by
  have backEq : slot.back = (slot.gaps ++ [Symbol.glyph '(']) ++ slot.below := by simp [back]
  rw [backEq, List.take_append, List.take_of_length_le reached]
  simp

private theorem ordinary_x : Ordinary "x" :=
  .word ⟨⟨_, rfl, by decide⟩, by decide⟩ (by decide)

/-- The arguments between parentheses that pass over the head are the same for all names. -/
private theorem countArguments_name {front back : Text} {old new : Text} (isOld : Ordinary old) (isNew : Ordinary new) :
    countArguments (front ++ (old ++ back)) = countArguments (front ++ (new ++ back)) := by
  have content : ∀ {name : Text}, Ordinary name → ∀ symbol ∈ name, isContent symbol = true := by
    intro name ordinary symbol member
    rcases ordinary.symbols symbol member with word | rfl
    · exact isContent_of_isWord word
    · decide
  simp only [countArguments, List.foldl_append]
  rw [foldl_read_content _ isOld.ne_nil (content isOld), foldl_read_content _ isNew.ne_nil (content isNew)]

/-- Parameters in parentheses that open above the head. -/
theorem parenthesized_outside {left lines : Text} (split : slot.above = left ++ lines)
    (opens : lines.head? = some (.glyph '(')) :
    ∃ stop : slot.Mark, stop.Outside ∧ ∃ count, ∀ name, Ordinary name →
      left.length + ((lines ++ slot.line name).take
        (closingSpan (.glyph '(') (.glyph ')') 0 (lines ++ slot.line name) + 1)).length = (stop.left name).length ∧
      countArguments (((lines ++ slot.line name).take
        (closingSpan (.glyph '(') (.glyph ')') 0 (lines ++ slot.line name))).drop 1) = count := by
  rcases closing_outside slot lines 0 with ⟨front, back, closesAt, same⟩ | ⟨length, reached, within, same⟩
  · refine ⟨above (left ++ (front ++ [.glyph ')'])) back (by rw [split, closesAt]; simp), .above _ _ _,
      countArguments (front.drop 1), fun name ordinary => ?_⟩
    rw [same, above_left, closesAt, List.append_assoc, List.cons_append]
    constructor
    · rw [List.take_length_add_append]
      simp only [List.length_append, List.length_cons, List.length_nil, List.take_succ_cons, List.take_zero]
    · rw [List.take_left]
  · have lineEq : ∀ name, lines ++ slot.line name =
        (lines ++ (slot.indent ++ ("def" ++ slot.lead)) ++ name) ++ slot.back := by
      intro name
      simp [line]
    refine ⟨.after (slot.back.take (length + 1)) (slot.back.drop (length + 1)) (List.take_append_drop _ _).symm,
      .below _ _ _ (opened_of_le (Nat.le_succ_of_le reached)),
      countArguments ((lines ++ (slot.indent ++ ("def" ++ slot.lead))).drop 1 ++ ("x" ++ slot.back.take length)),
      fun name ordinary => ?_⟩
    rw [same name ordinary, lineEq]
    constructor
    · rw [Nat.add_assoc, List.take_length_add_append]
      simp only [Mark.left, front, Slot.left, split, List.length_append]
      omega
    · obtain ⟨others, rfl⟩ := List.head?_eq_some_iff.mp opens
      rw [List.take_length_add_append, List.append_assoc _ name, List.drop_append_of_le_length (by simp)]
      exact countArguments_name ordinary ordinary_x

/-- Parameters after a name above the head: how many there are and where they end. -/
theorem parameters_outside {left lines : Text} (split : slot.above = left ++ lines) (more : lines ≠ []) :
    ∃ stop : slot.Mark, stop.Outside ∧ ∃ count, ∀ name, Ordinary name →
      left.length + (Header.parametersAt (lines ++ slot.line name) 0).2 = (stop.left name).length ∧
      countArguments (Header.parametersAt (lines ++ slot.line name) 0).1 = count := by
  obtain ⟨first, others, absent, rfl⟩ := (lines_cases split).resolve_left more
  obtain ⟨gaps, rest, rfl, -, inGaps, stops⟩ := exists_run isGap first
  have gapsStop : ∀ below : Text, ∀ next ∈ (rest ++ newline :: below).head?, isGap next = false := by
    intro below next member
    cases rest with
    | nil =>
        cases member
        decide
    | cons symbol later => exact stops next member
  have run : ∀ below : Text, (gaps ++ (rest ++ newline :: below)).takeWhile isGap = gaps :=
    fun below => takeWhile_run inGaps (gapsStop below)
  have head : ∀ below : Text, (rest ++ newline :: below).head? = (rest ++ [newline]).head? := by
    intro below
    cases rest with
    | nil => rfl
    | cons symbol later => rfl
  have lineStops : ∀ below : Text, ((rest ++ newline :: below).takeWhile fun symbol => !symbol.isOneOf "\n;") =
      rest.takeWhile fun symbol => !symbol.isOneOf "\n;" := by
    intro below
    apply takeWhile_append_stop
    intro next member
    cases member
    decide
  have inner : slot.above = (left ++ gaps) ++ (rest ++ newline :: others) := by
    rw [split]
    simp
  simp only [Header.parametersAt, List.append_assoc, List.cons_append, List.drop_zero, Nat.zero_add, run,
    List.drop_left, head, lineStops]
  split_ifs with opens bare
  · obtain ⟨stop, outside, count, same⟩ := parenthesized_outside inner ((head others).trans opens)
    refine ⟨stop, outside, count, fun name ordinary => ?_⟩
    obtain ⟨reaches, counted⟩ := same name ordinary
    rw [List.append_assoc, List.cons_append] at reaches counted
    rw [List.length_append] at reaches
    exact ⟨by omega, counted⟩
  · exact ⟨above left _ split, .above _ _ _, _, fun name ordinary => ⟨rfl, rfl⟩⟩
  · obtain ⟨later, restEq⟩ : ∃ later, rest = (rest.takeWhile fun symbol => !symbol.isOneOf "\n;") ++ later :=
      (List.takeWhile_prefix (l := rest) fun symbol => !symbol.isOneOf "\n;").imp fun _ same => same.symm
    refine ⟨above (left ++ (gaps ++ rest.takeWhile fun symbol => !symbol.isOneOf "\n;")) (later ++ newline :: others) ?_,
      .above _ _ _, _, fun name ordinary => ⟨?_, rfl⟩⟩
    · rw [inner]
      conv_lhs => rw [restEq]
      simp
    · rw [above_left]
      simp only [List.length_append]

/-! ### Heads -/

end Mark

/-- What a head outside the slot says, for all names in the slot. -/
structure Heading (slot : Slot) where
  receiver : Option Text
  title : Text
  argumentCount : Nat
  endless : Bool
  nameAt : slot.Mark
  stop : slot.Mark
  outside : stop.Outside

/-- Whether a head is what a heading says about it. -/
structure Heading.Reads (heading : slot.Heading) (mark : slot.Mark) (name : Text) (header : Header) : Prop where
  receiver : header.receiver = heading.receiver
  title : header.name = heading.title
  argumentCount : countArguments header.parameters = heading.argumentCount
  endless : header.endless = heading.endless
  nameBegin : (mark.left name).length + header.nameBegin = (heading.nameAt.left name).length
  nameEnd : header.nameEnd = header.nameBegin + header.name.length
  headerEnd : (mark.left name).length + header.headerEnd = (heading.stop.left name).length

namespace Mark

theorem below_forward {left right : Text} (split : slot.back = left ++ right) (opened : .glyph '(' ∈ left)
    {length : Nat} (within : length ≤ right.length) :
    ∃ stop : slot.Mark, stop.Outside ∧ ∀ name,
      ((after left right split).left name).length + length = (stop.left name).length := by
  refine ⟨.after (left ++ right.take length) (right.drop length) (by
    rw [List.append_assoc, List.take_append_drop, split]), .below _ _ _ (List.mem_append_left _ opened), fun name => ?_⟩
  simp only [Mark.left, List.length_append, List.length_take]
  omega

theorem above_forward {left front lines : Text} (split : slot.above = left ++ (front ++ lines)) :
    ∃ stop : slot.Mark, stop.Outside ∧ ∀ name, left.length + front.length = (stop.left name).length := by
  refine ⟨above (left ++ front) lines (by rw [split, List.append_assoc]), .above _ _ _, fun name => ?_⟩
  rw [above_left, List.length_append]

/-- On a line above the head, a head is read for all names in the slot or for none. -/
theorem read?_above {left lines : Text} (split : slot.above = left ++ lines) (more : lines ≠ []) :
    (∀ name, Header.read? ((above left lines split).right name) = none) ∨
      ∃ heading : slot.Heading, heading.nameAt.Outside ∧ ∀ name, Ordinary name → ∃ header,
        Header.read? ((above left lines split).right name) = some header ∧
          heading.Reads (above left lines split) name header := by
  simp only [above_right]
  obtain ⟨first, others, absent, rfl⟩ := (lines_cases split).resolve_left more
  by_cases found : ∃ name, Header.read? (first ++ newline :: others ++ slot.line name) ≠ none
  · obtain ⟨name, found⟩ := found
    obtain ⟨header, found⟩ := Option.ne_none_iff_exists'.mp found
    rw [List.append_assoc, List.cons_append] at found
    obtain ⟨receiver, lead, title, tail, rfl, reads⟩ := Header.read?_line found
    have nameSplit : slot.above = left ++ ("def" ++ lead ++ (title ++ tail ++ newline :: others)) := by
      rw [split]
      simp
    have tailSplit : slot.above = (left ++ ("def" ++ (lead ++ title))) ++ (tail ++ newline :: others) := by
      rw [split]
      simp
    obtain ⟨nameAt, nameOutside, nameReaches⟩ := above_forward nameSplit
    obtain ⟨stop, stopOutside, count, parameters⟩ := parameters_outside tailSplit (by simp)
    obtain ⟨endless, isEndless⟩ := isEndless_outside stopOutside
    refine Or.inr ⟨⟨receiver, title, count, endless, nameAt, stop, stopOutside⟩, nameOutside, fun other ordinary => ?_⟩
    obtain ⟨reaches, counted⟩ := parameters other ordinary
    rw [List.append_assoc, List.cons_append] at reaches counted
    refine ⟨_, by rw [List.append_assoc, List.cons_append]; exact reads _, rfl, rfl, counted, ?_, ?_, rfl, ?_⟩
    · have dropped := @drop_right slot (above _ _ tailSplit) stop other _ reaches
      rw [above_right] at dropped
      change Header.isEndless _ = endless
      rw [← isEndless other, ← dropped]
      simp
    · rw [← nameReaches other, above_left, List.length_append]
      rfl
    · rw [← reaches, above_left]
      simp only [Header.written, List.length_append]
      change _ = _ + (3 + _) + _
      omega
  · left
    intro name
    by_contra some
    exact found ⟨name, some⟩

/-- Below the parenthesis of the slot, what is read of a head does not depend on the name. -/
theorem read?_below {left right : Text} (split : slot.back = left ++ right) (opened : .glyph '(' ∈ left) :
    (∀ name, Header.read? ((after left right split).right name) = none) ∨
      ∃ heading : slot.Heading, heading.nameAt.Outside ∧ ∀ name, Ordinary name → ∃ header,
        Header.read? ((after left right split).right name) = some header ∧
          heading.Reads (after left right split) name header := by
  cases found : Header.read? right with
  | none => exact Or.inl fun name => found
  | some header =>
      have bounds := Header.headerEnd_bounds found
      obtain ⟨lead, title, rest, -, -, -, -, headerEq, -⟩ := Header.read?_sound found
      have order : header.nameBegin ≤ header.headerEnd := by
        rw [headerEq]
        simp only [Header.written]
        omega
      obtain ⟨nameAt, nameOutside, nameReaches⟩ := below_forward split opened (Nat.le_trans order bounds.2)
      obtain ⟨stop, outside, reaches⟩ := below_forward split opened bounds.2
      refine Or.inr ⟨⟨header.receiver, header.name, countArguments header.parameters, header.endless, nameAt, stop,
        outside⟩, nameOutside, fun name ordinary => ⟨header, found, rfl, rfl, rfl, rfl, nameReaches name, ?_,
        reaches name⟩⟩
      rw [headerEq]
      rfl

end Mark

/-- The head of the slot is read as it is written. -/
theorem read?_head (slot : Slot) {name : Text} (ordinary : Ordinary name) :
    Header.read? ("def" ++ (slot.lead ++ (name ++ slot.back))) =
      some (Header.written slot.receiver slot.lead name slot.back) :=
  Header.read?_complete slot.isLead ordinary.ne_nil (ordinary.named slot) fun _ => ordinary.unreceived slot

/-- The number of symbols between the name and the end of the head. -/
def headLength (slot : Slot) : Nat :=
  (Header.parametersAt slot.back 0).2

/-- The mark after the head of the slot. -/
def headStop (slot : Slot) : slot.Mark :=
  .after (slot.back.take slot.headLength) (slot.back.drop slot.headLength) (List.take_append_drop _ _).symm

theorem headStop_outside (slot : Slot) : slot.headStop.Outside := by
  refine .below _ _ _ (Mark.opened_of_le ?_)
  have gaps : slot.back.takeWhile isGap = slot.gaps :=
    takeWhile_run slot.gapsGaps (by intro next member; cases member; decide)
  have dropped : slot.back.drop slot.gaps.length = .glyph '(' :: slot.below := List.drop_left
  simp only [headLength, Header.parametersAt, List.drop_zero, Nat.zero_add, gaps, dropped, List.head?_cons, if_true,
    List.take_succ_cons, List.length_cons, List.length_append, List.length_nil]
  omega

theorem head_reaches (slot : Slot) (name : Text) :
    slot.left.length + (Header.written slot.receiver slot.lead name slot.back).headerEnd =
      (slot.headStop.left name).length := by
  have within : slot.headLength ≤ slot.back.length := Header.parametersAt_le slot.back
  simp only [headStop, Mark.left, Header.written, front, List.length_append, List.length_take]
  change _ + (3 + _ + _ + slot.headLength) = _ + (3 + _) + _
  omega

/-- Before the `def` of the slot there is a gap, a newline or nothing. -/
theorem left_last (slot : Slot) : ∀ last ∈ slot.left.reverse.head?, isGap last = true ∨ last = newline := by
  intro last member
  rw [List.head?_reverse, left] at member
  by_cases flush : slot.indent = []
  · rw [flush, List.append_nil] at member
    exact Or.inr (slot.whole last member)
  · rw [List.getLast?_append_of_ne_nil _ flush] at member
    exact Or.inl (slot.indentGaps last (List.mem_of_getLast? member))

/-- The `def` of the slot stands where a keyword may stand. -/
theorem isKeywordPlace_head (slot : Slot) (rest : Text) :
    isKeywordPlace slot.left.reverse (slot.lead ++ rest) = true := by
  obtain ⟨gap, others, leadEq, isGap⟩ := slot.isLead.head
  have behind := slot.left_last
  have apart : ∀ mark : Symbol, Source.isGap mark = false → mark ≠ newline →
      slot.left.reverse.head? ≠ some mark := by
    intro mark noGap noNewline head
    rcases behind mark head with isGap | isNewline
    · rw [noGap] at isGap
      cases isGap
    · exact noNewline isNewline
  have noSigil : (slot.left.reverse.head?.any fun symbol => symbol.isOneOf "@$") = false := by
    cases head : slot.left.reverse.head? with
    | none => rfl
    | some last =>
        rcases behind last head with gap | rfl
        · rcases (isGap_iff last).mp gap with rfl | rfl <;> rfl
        · rfl
  have noColon : gap ≠ .glyph ':' := by
    rcases (isGap_iff gap).mp isGap with rfl | rfl <;> decide
  rw [leadEq]
  simp only [isKeywordPlace, noSigil, apart (.glyph '.') (by decide) (by decide),
    apart (.glyph ':') (by decide) (by decide), List.cons_append, List.head?_cons, Option.some.injEq, noColon,
    decide_false, Bool.false_and, Bool.not_false, Bool.and_self]

theorem read_head (slot : Slot) (block : Block) {name : Text} (ordinary : Ordinary name) :
    block.read slot.left.reverse ("def" ++ (slot.lead ++ (name ++ slot.back))) =
      block.readDef (some (Header.written slot.receiver slot.lead name slot.back)) := by
  have token : tokenLength ("def" ++ (slot.lead ++ (name ++ slot.back))) = 3 := by
    obtain ⟨gap, others, leadEq, isGap⟩ := slot.isLead.head
    rw [leadEq]
    rcases (isGap_iff gap).mp isGap with rfl | rfl <;> rfl
  rw [← slot.read?_head ordinary, ← Block.readKeyword_def, Block.read, token]
  have taken : ("def" ++ (slot.lead ++ (name ++ slot.back)) : Text).take 3 = "def" := rfl
  have dropped : ("def" ++ (slot.lead ++ (name ++ slot.back)) : Text).drop (Text.ofString "def").length =
      slot.lead ++ (name ++ slot.back) := rfl
  simp only [taken, dropped, slot.isKeywordPlace_head]
  rfl

/-! ### Blocks -/

namespace Mark

theorem size_lt {mark stop : slot.Mark} (outside : stop.Outside) {name : Text}
    (further : (mark.left name).length < (stop.left name).length) : stop.size < mark.size := by
  cases mark with
  | before left right split =>
      have total := congrArg List.length split
      rw [List.length_append] at total
      cases outside with
      | above stopLeft lines stopSplit =>
          have stopTotal := congrArg List.length stopSplit
          simp only [size, Mark.left, Mark.right, above, front, Slot.left, List.length_append, List.length_nil]
            at further total stopTotal ⊢
          omega
      | below stopLeft stopRight stopSplit opened =>
          have stopTotal := congrArg List.length stopSplit
          have positive := List.length_pos_iff.mpr (List.ne_nil_of_mem opened)
          simp only [size, Mark.right, List.length_append, List.length_nil] at stopTotal ⊢
          omega
  | after left right split =>
      have total := congrArg List.length split
      rw [List.length_append] at total
      cases outside with
      | above stopLeft lines stopSplit =>
          have stopTotal := congrArg List.length stopSplit
          simp only [Mark.left, above, front, Slot.left, List.length_append] at further stopTotal
          omega
      | below stopLeft stopRight stopSplit opened =>
          have stopTotal := congrArg List.length stopSplit
          simp only [size, Mark.left, Mark.right, List.length_append] at further stopTotal ⊢
          omega

/-- A token that does not close the block leads from mark to mark. -/
theorem extent_goesOn {block next : Block} {mark stop : slot.Mark} {name filler text : Text} {length : Nat}
    (right : mark.right name = filler ++ text) (fills : ∀ symbol ∈ filler, isFiller symbol = true)
    (stops : ∀ next ∈ text.head?, isFiller next = false) (nonempty : text ≠ [])
    (reads : block.read (filler.reverse ++ (mark.left name).reverse) text = .goesOn next length)
    (reaches : (mark.left name).length + (filler.length + length) = (stop.left name).length) :
    (mark.left name).length + block.extent (mark.left name).reverse (mark.right name) =
      (stop.left name).length + next.extent (stop.left name).reverse (stop.right name) := by
  have behind : (text.take length).reverse ++ (filler.reverse ++ (mark.left name).reverse) =
      (stop.left name).reverse := by
    rw [← take_right reaches, right, List.take_length_add_append]
    simp
  have ahead : text.drop length = stop.right name := by
    rw [← drop_right reaches, right, List.drop_length_add_append]
  rw [right, Block.extent_eq block _ filler text fills stops, if_neg nonempty, reads]
  dsimp only
  rw [behind, ahead, ← reaches]
  omega

/-- One token from a mark, for all names: it closes the block, or the search goes on from another mark. -/
def Step (block : Block) (mark : slot.Mark) : Prop :=
  (∃ stop : slot.Mark, stop.Outside ∧ ∀ name, Ordinary name →
    (mark.left name).length + block.extent (mark.left name).reverse (mark.right name) = (stop.left name).length) ∨
  ∃ (next : Block) (stop : slot.Mark), stop.Outside ∧ stop.size < mark.size ∧ ∀ name, Ordinary name →
    (mark.left name).length + block.extent (mark.left name).reverse (mark.right name) =
      (stop.left name).length + next.extent (stop.left name).reverse (stop.right name)

theorem isFiller_of_isGap {symbol : Symbol} (gap : isGap symbol = true) : isFiller symbol = true := by
  rcases (isGap_iff symbol).mp gap with rfl | rfl <;> decide

/-- At the line of the head the search passes over the head. -/
theorem step_head (block : Block) (split : slot.above = slot.above ++ []) :
    Step block (above slot.above [] split) := by
  right
  let inner := if Header.isEndless (slot.back.drop slot.headLength) then block.inner else block.inner + 1
  refine ⟨{ block with inner := inner, atStatement := Header.isEndless (slot.back.drop slot.headLength) },
    slot.headStop, slot.headStop_outside, ?_, fun name ordinary => ?_⟩
  · simp only [size, headStop, above, Mark.right, List.length_append, List.length_drop]
    change _ < _ + (_ + (3 + _)) + _
    omega
  · have reads := slot.read_head block ordinary
    rw [Slot.left, List.reverse_append] at reads
    have right : (above slot.above [] split).right name =
        slot.indent ++ ("def" ++ (slot.lead ++ (name ++ slot.back))) := above_right _ _ _ name
    refine extent_goesOn right (fun symbol member => isFiller_of_isGap (slot.indentGaps symbol member))
      (by intro next member; cases member; decide) (by simp [Text.ofString]) reads ?_
    rw [above_left, ← Nat.add_assoc, ← List.length_append]
    exact slot.head_reaches name

section Line

variable {block next : Block} {left filler text : Text} {length : Nat}

theorem step_goesOn (split : slot.above = left ++ (filler ++ text)) (fills : ∀ symbol ∈ filler, isFiller symbol = true)
    (stops : ∀ next ∈ text.head?, isFiller next = false) (positive : 0 < length) (within : length ≤ text.length)
    (reads : ∀ name, block.read (filler.reverse ++ left.reverse) (text ++ slot.line name) = .goesOn next length) :
    Step block (above left (filler ++ text) split) := by
  have nonempty : text ≠ [] := List.length_pos_iff.mp (by omega)
  have size : (text.take length).length = length := List.length_take_of_le within
  have forward : slot.above = (left ++ (filler ++ text.take length)) ++ text.drop length := by
    rw [split]
    simp
  refine Or.inr ⟨next, above _ _ forward, .above _ _ _, ?_, fun name _ => ?_⟩
  · refine @size_lt slot _ _ (.above _ _ _) [] ?_
    simp only [above_left, List.length_append, size]
    omega
  · refine extent_goesOn (by rw [above_right, List.append_assoc]) fills
      (by rwa [List.head?_append_of_ne_nil _ nonempty]) (by simp [nonempty]) (reads name) ?_
    simp only [above_left, List.length_append, size]

theorem step_closed (split : slot.above = left ++ (filler ++ text)) (fills : ∀ symbol ∈ filler, isFiller symbol = true)
    (stops : ∀ next ∈ text.head?, isFiller next = false) (nonempty : text ≠ []) (within : length ≤ text.length)
    (reads : ∀ name, block.read (filler.reverse ++ left.reverse) (text ++ slot.line name) = .closed length) :
    Step block (above left (filler ++ text) split) := by
  obtain ⟨stop, outside, reaches⟩ := @above_forward slot left (filler ++ text.take length) (text.drop length) (by
    rw [split]
    simp)
  refine Or.inl ⟨stop, outside, fun name _ => ?_⟩
  have stopsHere : ∀ next ∈ (text ++ slot.line name).head?, isFiller next = false := by
    rwa [List.head?_append_of_ne_nil _ nonempty]
  rw [above_right, List.append_assoc, Block.extent_eq block _ filler _ fills stopsHere, if_neg (by simp [nonempty]),
    above_left, reads, ← reaches name, List.length_append, List.length_take_of_le within]

/-- A head on the line is passed over. -/
theorem step_heading (split : slot.above = left ++ (filler ++ text)) (fills : ∀ symbol ∈ filler, isFiller symbol = true)
    (stops : ∀ next ∈ text.head?, isFiller next = false) (nonempty : text ≠ []) {heading : slot.Heading}
    (inner : slot.above = (left ++ filler) ++ text)
    (reads : ∀ name, block.read (filler.reverse ++ left.reverse) (text ++ slot.line name) =
      block.readDef (Header.read? (text ++ slot.line name)))
    (found : ∀ name, Ordinary name → ∃ header, Header.read? ((above (left ++ filler) text inner).right name) =
      some header ∧ heading.Reads (above (left ++ filler) text inner) name header) :
    Step block (above left (filler ++ text) split) := by
  simp only [above_right] at found
  refine Or.inr ⟨{ block with
      inner := if heading.endless then block.inner else block.inner + 1
      atStatement := heading.endless }, heading.stop, heading.outside, ?_, fun name ordinary => ?_⟩
  · obtain ⟨header, read, isRead⟩ := found "x" ordinary_x
    have positive := (Header.headerEnd_bounds read).1
    have reaches := isRead.headerEnd
    refine @size_lt slot _ _ heading.outside "x" ?_
    rw [above_left, List.length_append] at reaches
    rw [above_left]
    omega
  · obtain ⟨header, read, isRead⟩ := found name ordinary
    have reaches := isRead.headerEnd
    refine extent_goesOn (by rw [above_right, List.append_assoc]) fills
      (by rwa [List.head?_append_of_ne_nil _ nonempty]) (by simp [nonempty])
      (show block.read _ _ = .goesOn _ header.headerEnd from ?_) ?_
    · rw [above_left, reads, read, ← isRead.endless]
      rfl
    · rw [above_left, List.length_append] at reaches
      rw [above_left]
      omega

end Line

/-- On a line above the head the search reads a token of the line. -/
theorem step_line (block : Block) {left first others : Text} (split : slot.above = left ++ (first ++ newline :: others))
    (absent : newline ∉ first) : Step block (above left (first ++ newline :: others) split) := by
  obtain ⟨filler, word, rfl, -, fills, stops⟩ := exists_run isFiller first
  revert split
  rw [List.append_assoc filler]
  intro split
  by_cases ended : word = []
  · subst ended
    have reads : ∀ name, block.read (filler.reverse ++ left.reverse) (newline :: others ++ slot.line name) =
        .goesOn { block with atStatement := true, awaitsDo := false } 1 := fun _ => rfl
    exact step_goesOn split fills (by intro next member; cases member; decide) Nat.one_pos (by simp) reads
  have wordStops : ∀ next ∈ (word ++ newline :: others).head?, isFiller next = false := by
    rwa [List.head?_append_of_ne_nil _ ended]
  have longer : word.length ≤ (word ++ newline :: others).length := by simp
  rcases block.read_stop (filler.reverse ++ left.reverse) ended with stopped | ⟨three, stopped⟩
  · have same : ∀ name, block.read (filler.reverse ++ left.reverse) (word ++ newline :: others ++ slot.line name) =
        block.read (filler.reverse ++ left.reverse) word := by
      intro name
      rw [List.append_assoc, List.cons_append, stopped newline _ (by decide)]
    have bounds := block.read_bounds (filler.reverse ++ left.reverse) ended
    cases reading : block.read (filler.reverse ++ left.reverse) word with
    | closed length =>
        rw [reading] at bounds
        have within : length ≤ word.length := bounds.2
        exact step_closed split fills wordStops (by simp) (within.trans longer) fun name => (same name).trans reading
    | goesOn next length =>
        rw [reading] at bounds
        have positive : 0 < length := bounds.1
        have within : length ≤ word.length := bounds.2
        exact step_goesOn split fills wordStops positive (within.trans longer) fun name => (same name).trans reading
  · have same : ∀ name, block.read (filler.reverse ++ left.reverse) (word ++ newline :: others ++ slot.line name) =
        block.readDef (Header.read? (word ++ newline :: others ++ slot.line name)) := by
      intro name
      rw [List.append_assoc, List.cons_append, stopped newline _ (by decide)]
    have inner : slot.above = (left ++ filler) ++ (word ++ newline :: others) := by rw [split, List.append_assoc]
    rcases read?_above inner (by simp) with none | ⟨heading, -, found⟩
    · have reads : ∀ name, block.read (filler.reverse ++ left.reverse) (word ++ newline :: others ++ slot.line name) =
          .goesOn { block with inner := block.inner + 1, atStatement := false } 3 := by
        intro name
        have noHead := none name
        rw [above_right] at noHead
        rw [same, noHead]
        rfl
      exact step_goesOn split fills wordStops (by decide) (three.trans longer) reads
    · exact step_heading split fills wordStops (by simp) inner same found

/-- Where a block ends that is open at a mark outside the head. -/
theorem extent_outside (block : Block) {mark : slot.Mark} (outside : mark.Outside) :
    ∃ stop : slot.Mark, stop.Outside ∧ ∀ name, Ordinary name →
      (mark.left name).length + block.extent (mark.left name).reverse (mark.right name) =
        (stop.left name).length := by
  induction size : mark.size using Nat.strong_induction_on generalizing block mark with
  | _ measure ih =>
      have run : Step block mark → ∃ stop : slot.Mark, stop.Outside ∧ ∀ name, Ordinary name →
          (mark.left name).length + block.extent (mark.left name).reverse (mark.right name) =
            (stop.left name).length := by
        rintro (closed | ⟨next, between, betweenOutside, smaller, goesOn⟩)
        · exact closed
        · obtain ⟨stop, stopOutside, reaches⟩ := ih between.size (size ▸ smaller) next betweenOutside rfl
          exact ⟨stop, stopOutside, fun name ordinary => (goesOn name ordinary).trans (reaches name ordinary)⟩
      cases outside with
      | below left right split opened =>
          obtain ⟨stop, stopOutside, reaches⟩ := below_forward split opened (block.extent_le left.reverse right)
          refine ⟨stop, stopOutside, fun name ordinary => ?_⟩
          have behind : ((after left right split).left name).reverse =
              left.reverse ++ (name.reverse ++ slot.front.reverse) := by simp [Mark.left]
          rw [← reaches name, behind, Block.extent_opened (List.mem_reverse.mpr opened)]
          rfl
      | above left lines split =>
          rcases lines_cases split with rfl | ⟨first, others, absent, rfl⟩
          · obtain rfl : slot.above = left := by rw [split, List.append_nil]
            exact run (step_head block split)
          · exact run (step_line block split absent)

end Mark

end Slot

end AccessorLint.Source
