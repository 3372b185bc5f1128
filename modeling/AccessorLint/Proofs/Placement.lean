import Mathlib
import AccessorLint.Proofs.Alignment
import AccessorLint.Proofs.Layout
import AccessorLint.Proofs.Tokens
set_option autoImplicit false

/-!
Declarations and the text they describe.

What a declaration says can be checked against the text: its name and its source text are stretches of the text, its
lines and columns count newlines, and it stops at the end of the text, at a newline or after a keyword `end`.  The
names of different declarations do not meet.
-/

namespace AccessorLint

open AccessorLint.Symbol (newline)

/-! ### Lines -/

namespace Text

theorem lines_length (text : Text) : (lines text).length = text.count newline + 1 := by
  induction text using line_induction with
  | last line absent =>
      rw [lines_of_not_mem absent, List.count_eq_zero_of_not_mem absent]
      rfl
  | line line rest absent ih =>
      rw [lines_append_newline, lines_of_not_mem absent, List.length_append, ih, List.count_append,
        List.count_cons_self, List.count_eq_zero_of_not_mem absent]
      simp only [List.length_singleton]
      omega

theorem lines_head (text : Text) : (lines text)[0]? = some (firstLine text) := by
  rcases line_cases text with absent | ⟨line, rest, absent, rfl⟩
  · rw [lines_of_not_mem absent, firstLine_of_not_mem absent]
    rfl
  · rw [lines_append_newline, lines_of_not_mem absent, firstLine_append_newline absent]
    rfl

/-- A text is whole lines and the start of a line. -/
theorem exists_last_line (text : Text) : ∃ above front, text = above ++ front ∧ WholeLines above ∧ newline ∉ front := by
  induction text using line_induction with
  | last line absent => exact ⟨[], line, rfl, WholeLines.nil, absent⟩
  | line line rest absent ih =>
      obtain ⟨above, front, rfl, whole, outside⟩ := ih
      refine ⟨line ++ newline :: above, front, by simp, ?_, outside⟩
      rcases List.eq_nil_or_concat' above with rfl | ⟨others, last, rfl⟩
      · exact WholeLines.append_newline line
      · have isNewline : last = newline := whole last (by simp)
        have regrouped : line ++ newline :: (others ++ [last]) = (line ++ newline :: others) ++ [newline] := by
          rw [isNewline]
          simp
        rw [regrouped]
        exact WholeLines.append_newline _

/-- What stands before an offset is whole lines and the start of a line. -/
theorem exists_line_at {text : Text} {offset : Nat} (inside : offset ≤ text.length) :
    ∃ above front rest, text = above ++ (front ++ rest) ∧ offset = (above ++ front).length ∧ WholeLines above ∧
      newline ∉ front := by
  obtain ⟨above, front, split, whole, absent⟩ := exists_last_line (text.take offset)
  refine ⟨above, front, text.drop offset, ?_, ?_, whole, absent⟩
  · rw [← List.append_assoc, ← split, List.take_append_drop]
  · rw [← split, List.length_take_of_le inside]

theorem lines_whole {above : Text} (whole : WholeLines above) (tail : Text) :
    (lines (above ++ tail))[above.count newline]? = some (firstLine tail) := by
  induction above using line_induction with
  | last line absent =>
      rw [whole.eq_nil absent]
      exact lines_head tail
  | line line rest absent ih =>
      have below : WholeLines rest := @WholeLines.of_append (line ++ [newline]) rest (by simpa using whole)
      rw [List.append_assoc, List.cons_append, lines_append_newline, lines_of_not_mem absent, List.count_append,
        List.count_cons_self, List.count_eq_zero_of_not_mem absent, Nat.zero_add, List.singleton_append,
        List.getElem?_cons_succ]
      exact ih below

end Text

namespace Source

open AccessorLint.Text (WholeLines firstLine)

private theorem lineStarts_go_line (base : Nat) {line : Text} (absent : newline ∉ line) (rest : Text) :
    lineStarts.go base (line ++ newline :: rest) =
      (base + line.length + 1) :: lineStarts.go (base + line.length + 1) rest := by
  induction line generalizing base with
  | nil => rw [List.nil_append, lineStarts.go, if_pos rfl, List.length_nil, Nat.add_zero]
  | cons symbol others ih =>
      rw [List.mem_cons, not_or] at absent
      rw [List.cons_append, lineStarts.go, if_neg (Ne.symm absent.1), ih _ absent.2, List.length_cons]
      simp only [Nat.add_comm, Nat.add_left_comm]

/-- Where whole lines end, a line starts. -/
theorem lineStarts_whole (base : Nat) {above : Text} (whole : WholeLines above) (tail : Text) :
    (base :: lineStarts.go base (above ++ tail))[above.count newline]? = some (base + above.length) := by
  induction above using Text.line_induction generalizing base with
  | last line absent =>
      rw [whole.eq_nil absent]
      rfl
  | line line rest absent ih =>
      have below : WholeLines rest := @WholeLines.of_append (line ++ [newline]) rest (by simpa using whole)
      have next := ih (base + line.length + 1) below
      rw [List.append_assoc, List.cons_append, lineStarts_go_line base absent, List.count_append, List.count_cons_self,
        List.count_eq_zero_of_not_mem absent, Nat.zero_add, List.getElem?_cons_succ, next, List.length_append,
        List.length_cons]
      congr 1
      omega

/-- The line of an offset is counted by the newlines before it, and its column by the symbols after the last one. -/
theorem position_eq {above front : Text} (whole : WholeLines above) (absent : newline ∉ front) (rest : Text) :
    position (lineStarts (above ++ (front ++ rest))) (above ++ front).length =
      (above.count newline + 1, front.length + 1) := by
  have line : (position (lineStarts (above ++ (front ++ rest))) (above ++ front).length).1 = above.count newline + 1 := by
    rw [position_line, ← List.append_assoc, List.take_left, List.count_append, List.count_eq_zero_of_not_mem absent,
      Nat.add_zero]
  have start : (lineStarts (above ++ (front ++ rest))).getD (above.count newline) 0 = above.length := by
    rw [List.getD_eq_getElem?_getD, lineStarts, lineStarts_whole 0 whole]
    simp
  have column : ∀ (starts : List Nat) (offset : Nat),
      (position starts offset).2 = offset - starts.getD ((position starts offset).1 - 1) 0 + 1 := fun _ _ => rfl
  refine Prod.ext line ?_
  rw [column, line, Nat.add_sub_cancel, start, List.length_append, Nat.add_sub_cancel_left]

/-! ### Names do not meet -/

/-- A name is an identifier, perhaps with a mark after it, or an operator. -/
theorem name_cases {name rest : Text} (nonempty : name ≠ []) (named : nameLength (name ++ rest) = name.length) :
    IsIdentifier name ∨ (∃ word mark, name = word ++ [mark] ∧ IsIdentifier word ∧ mark.isOneOf "=?!" = true) ∨
      name ∈ operatorNames := by
  rcases wordLength_cases (name ++ rest) with ⟨none, -⟩ | ⟨word, tail, split, identifier, stops, length⟩
  · right
    right
    rw [nameLength, none, if_pos rfl] at named
    cases found : operatorNames.find? fun operator => (name ++ rest).startsWith operator with
    | none =>
        rw [found] at named
        exact absurd (List.length_eq_zero_iff.mp named.symm) nonempty
    | some operator =>
        rw [found] at named
        have starts := List.find?_some found
        have within := List.prefix_of_prefix_length_le (List.isPrefixOf_iff_prefix.mp starts)
          (List.prefix_append name rest) (Nat.le_of_eq named)
        rw [← within.eq_of_length named]
        exact List.mem_of_find?_eq_some found
  · rw [split, nameLength_identifier identifier stops] at named
    rcases markLength_cases tail with none | ⟨mark, later, rfl, isMark, one⟩
    · left
      rw [none, Nat.add_zero] at named
      rw [(List.append_inj split named.symm).1]
      exact identifier
    · right
      left
      rw [one] at named
      rw [List.append_cons] at split
      have same := (List.append_inj split (by rw [← named, List.length_append, List.length_singleton])).1
      exact ⟨word, mark, same, identifier, isMark⟩

theorem isBlank_of_isOneOf_marks {symbol : Symbol} (isMark : symbol.isOneOf "=?!" = true) :
    symbol.isBlank = false ∧ symbol ≠ .glyph 'd' := by
  simp only [Symbol.isOneOf, String.reduceToList, List.any_cons, List.any_nil, Bool.or_false, Bool.or_eq_true,
    beq_iff_eq] at isMark
  rcases isMark with rfl | rfl | rfl <;> decide

theorem name_visible {name rest : Text} (nonempty : name ≠ []) (named : nameLength (name ++ rest) = name.length) :
    ∀ symbol ∈ name, symbol.isBlank = false := by
  intro symbol member
  rcases name_cases nonempty named with identifier | ⟨word, mark, rfl, identifier, isMark⟩ | operator
  · exact Symbol.isBlank_of_isWord (identifier.words symbol member)
  · rcases List.mem_append.mp member with inWord | isLast
    · exact Symbol.isBlank_of_isWord (identifier.words symbol inWord)
    · rw [List.mem_singleton.mp isLast]
      exact (isBlank_of_isOneOf_marks isMark).1
  · have visible : ∀ operator ∈ operatorNames, ∀ symbol ∈ operator, symbol.isBlank = false := by decide +kernel
    exact visible name operator symbol member

/-- Before a letter `d` inside a name there are only symbols of words. -/
theorem name_words_before {name rest front back : Text} (nonempty : name ≠ [])
    (named : nameLength (name ++ rest) = name.length) (split : name = front ++ .glyph 'd' :: back) :
    ∀ symbol ∈ front, symbol.isWord = true := by
  intro symbol member
  rcases name_cases nonempty named with identifier | ⟨word, mark, nameEq, identifier, isMark⟩ | operator
  · exact identifier.words symbol (by simp [split, member])
  · rw [nameEq] at split
    rcases List.eq_nil_or_concat' back with rfl | ⟨others, last, rfl⟩
    · have isLast := List.singleton_inj.mp (List.append_inj' split rfl).2
      exact absurd isLast (isBlank_of_isOneOf_marks isMark).2
    · rw [← List.cons_append, ← List.append_assoc] at split
      have wordEq := (List.append_inj' split rfl).1
      exact identifier.words symbol (by simp [wordEq, member])
  · have absent : ∀ operator ∈ operatorNames, .glyph 'd' ∉ operator := by decide +kernel
    exact absurd (by simp [split]) (absent name operator)

namespace Definition

/-- A definition that starts inside the name of another is named after it: the name is the word `def`. -/
theorem names_apart {code : Text} {first second : Definition} (inFirst : first ∈ all code) (inSecond : second ∈ all code)
    (order : first.start < second.start) : first.header.nameEnd ≤ second.header.nameBegin := by
  obtain ⟨left, lead, rest, stands⟩ := exists_stands inFirst
  obtain ⟨begun, gap, tail, later⟩ := exists_stands inSecond
  have after := stands.nameBegin_le inSecond order
  have before := start_lt_nameBegin inSecond
  by_cases inside : first.header.nameEnd ≤ second.start
  · omega
  have size := nameEnd_eq inFirst
  rw [later.start] at after inside
  rw [stands.nameBegin] at after
  -- the `def` of the second starts in the name of the first
  have whole : (left ++ ("def" ++ lead)) ++ (first.header.name ++ rest) =
      begun ++ ("def" ++ (gap ++ (second.header.name ++ tail))) := by
    rw [← later.code, stands.code]
    simp
  obtain ⟨front, rfl⟩ := List.prefix_of_prefix_length_le ⟨_, whole⟩ ⟨_, rfl⟩ after
  rw [@List.append_assoc _ (left ++ _) front] at whole
  have nameRest := List.append_cancel_left whole
  have within : front.length < first.header.name.length := by
    rw [size, stands.nameBegin, @List.length_append _ (left ++ _)] at inside
    omega
  obtain ⟨back, nameEq⟩ : front ++ [.glyph 'd'] <+: first.header.name := by
    have starts : front ++ [.glyph 'd'] <+: first.header.name ++ rest := by
      rw [nameRest]
      exact (List.prefix_append_right_inj front).mpr (List.prefix_append _ _)
    apply List.prefix_of_prefix_length_le starts (List.prefix_append _ _)
    rw [List.length_append, List.length_singleton]
    omega
  rw [List.append_assoc] at nameEq
  have words := name_words_before stands.nonempty stands.named nameEq.symm
  rcases List.eq_nil_or_concat' front with rfl | ⟨others, last, rfl⟩
  · -- so the name is the word `def`, and the second name stands after it
    obtain ⟨space, others, rfl, isSpace⟩ := later.isLead.head
    have identifier : IsIdentifier "def" := ⟨⟨.glyph 'd', rfl, by decide⟩, by decide⟩
    have three : first.header.name.length = 3 + markLength (space :: others ++ (second.header.name ++ tail)) := by
      rw [← stands.named, nameRest]
      refine nameLength_identifier identifier ?_
      intro next member
      cases member
      exact isWord_of_isGap isSpace
    have unmarked : markLength (space :: others ++ (second.header.name ++ tail)) = 0 := by
      rcases (isGap_iff space).mp isSpace with rfl | rfl <;> rfl
    rw [size, three, unmarked, stands.nameBegin, later.nameBegin]
    simp only [List.length_append]
    change _ ≤ _ + (3 + _)
    omega
  · have word : (((left ++ ("def" ++ lead)) ++ (others ++ [last])).reverse).head?.any Symbol.isWord = true := by
      simp [words last (by simp)]
    have found := later.found
    rw [at?_of_word word] at found
    cases found

/-! ### Extents -/

/-- A definition is read from the head at its `def`. -/
theorem exists_head {definition : Definition} {code : Text} (member : definition ∈ all code) :
    ∃ left ahead header, code = left ++ ahead ∧ opens left.reverse ahead = true ∧ Header.read? ahead = some header ∧
      definition = ⟨left.length, header.shift left.length, left.length + header.headerEnd + bodyLength header.endless
        ((ahead.take header.headerEnd).reverse ++ left.reverse) (ahead.drop header.headerEnd)⟩ := by
  obtain ⟨left, ahead, rfl, found⟩ := mem_all.mp member
  rw [at?_eq] at found
  split at found
  · rename_i opened
    obtain ⟨header, read, rfl⟩ := Option.map_eq_some_iff.mp found
    exact ⟨left, ahead, header, rfl, opened, read, by rw [List.length_reverse]⟩
  · cases found

/-- The head of a definition ends after the name, in the code, and not inside a name. -/
theorem headerEnd_bounds {definition : Definition} {code : Text} (member : definition ∈ all code) :
    definition.header.nameEnd ≤ definition.header.headerEnd ∧ definition.header.headerEnd ≤ code.length ∧
      Apart (code.take definition.header.headerEnd).reverse (code.drop definition.header.headerEnd) := by
  obtain ⟨left, ahead, header, rfl, -, read, rfl⟩ := exists_head member
  have bounds := Header.headerEnd_bounds read
  have apart := Header.headerEnd_apart read left.reverse
  obtain ⟨lead, name, rest, -, -, -, -, headerEq, -⟩ := Header.read?_sound read
  change header.nameEnd + left.length ≤ header.headerEnd + left.length ∧ header.headerEnd + left.length ≤ _ ∧
    Apart ((left ++ ahead).take (header.headerEnd + left.length)).reverse
      ((left ++ ahead).drop (header.headerEnd + left.length))
  rw [Nat.add_comm header.headerEnd, List.take_length_add_append, List.drop_length_add_append, List.length_append,
    List.reverse_append]
  refine ⟨?_, by omega, apart⟩
  rw [headerEq]
  simp only [Header.written]
  omega

/-- A definition stops where its body, which follows its head, does. -/
theorem stop_eq {definition : Definition} {code : Text} (member : definition ∈ all code) :
    definition.stop = definition.header.headerEnd + bodyLength definition.header.endless
      (code.take definition.header.headerEnd).reverse (code.drop definition.header.headerEnd) := by
  obtain ⟨left, ahead, header, rfl, -, -, rfl⟩ := exists_head member
  change left.length + header.headerEnd + _ = header.headerEnd + left.length + bodyLength header.endless
    ((left ++ ahead).take (header.headerEnd + left.length)).reverse
      ((left ++ ahead).drop (header.headerEnd + left.length))
  rw [Nat.add_comm header.headerEnd, List.take_length_add_append, List.drop_length_add_append, List.reverse_append]

theorem bodyLength_le (endless : Bool) (behind body : Text) : bodyLength endless behind body ≤ body.length := by
  cases endless with
  | true => exact Text.firstLine_length_le body
  | false => exact Block.extent_le Block.opened behind body

theorem nameEnd_le_stop {definition : Definition} {code : Text} (member : definition ∈ all code) :
    definition.header.nameEnd ≤ definition.stop := by
  have bounds := headerEnd_bounds member
  rw [stop_eq member]
  omega

theorem stop_le {definition : Definition} {code : Text} (member : definition ∈ all code) :
    definition.stop ≤ code.length := by
  have bounds := headerEnd_bounds member
  have within := bodyLength_le definition.header.endless (code.take definition.header.headerEnd).reverse
    (code.drop definition.header.headerEnd)
  rw [List.length_drop] at within
  rw [stop_eq member]
  omega

end Definition

/-! ### The text under the code -/

theorem exists_shown {text left word rest : Text} (code : blank text = left ++ (word ++ rest))
    (visible : ∀ symbol ∈ word, symbol.isBlank = false) :
    ∃ before after, text = before ++ (word ++ after) ∧ before.length = left.length := by
  have size := congrArg List.length code
  rw [blank_length, List.length_append, List.length_append] at size
  have shows := blank_images text
  rw [code] at shows
  have shownWord := List.forall₂_take_append _ _ _ (List.forall₂_drop_append _ _ _ shows)
  have split : text = text.take left.length ++
      ((text.drop left.length).take word.length ++ (text.drop left.length).drop word.length) := by
    rw [List.take_append_drop, List.take_append_drop]
  rw [eq_of_shown shownWord visible] at split
  exact ⟨_, _, split, List.length_take_of_le (by omega)⟩

/-- Code without newlines stands for text without newlines. -/
theorem count_newline_shown {text left middle rest : Text} (code : blank text = left ++ (middle ++ rest))
    (absent : newline ∉ middle) :
    (text.take (left ++ middle).length).count newline = (text.take left.length).count newline := by
  have shows := blank_images text
  rw [code] at shows
  have shownMiddle := List.forall₂_take_append _ _ _ (List.forall₂_drop_append _ _ _ shows)
  have outside := newline_not_mem_of_shown shownMiddle absent
  rw [List.length_append, List.take_add, List.count_append, List.count_eq_zero_of_not_mem outside, Nat.add_zero]

namespace Definition

/-- Where a definition stops. -/
inductive Stops (text : Text) (definition : Definition) : Prop where
  | unclosed (ends : definition.stop = text.length)
  | endless (endless : definition.header.endless = true) (ends : text[definition.stop]? = some newline)
  | closed (regular : definition.header.endless = false) (left after : Text)
      (code : blank text = left ++ ("end" ++ after)) (ends : definition.stop = left.length + 3)
      (keyword : EndKeyword left.reverse after) (shown : "end" <:+ text.take definition.stop)

theorem stops {text : Text} {definition : Definition} (member : definition ∈ all (blank text)) :
    definition.Stops text := by
  have bounds := headerEnd_bounds member
  have stopEq := stop_eq member
  have size := blank_length text
  have dropped := List.length_drop (i := definition.header.headerEnd) (l := blank text)
  have split := List.take_append_drop definition.header.headerEnd (blank text)
  have taken := List.length_take_of_le bounds.2.1
  cases isEndless : definition.header.endless with
  | true =>
      rw [isEndless] at stopEq
      change _ = _ + (firstLine _).length at stopEq
      rcases Text.line_cases ((blank text).drop definition.header.headerEnd) with absent | ⟨line, rest, absent, body⟩
      · apply Stops.unclosed
        rw [Text.firstLine_of_not_mem absent] at stopEq
        omega
      · apply Stops.endless isEndless
        rw [body, Text.firstLine_append_newline absent] at stopEq
        rw [← blank_newline_iff, stopEq, ← List.getElem?_drop, body, List.getElem?_append_right (Nat.le_refl _),
          Nat.sub_self]
        rfl
  | false =>
      rw [isEndless] at stopEq
      change _ = _ + Block.extent _ _ _ at stopEq
      rcases Block.opened.extent_closes bounds.2.2 with all | ⟨left, after, body, found, keyword⟩
      · apply Stops.unclosed
        omega
      · have code : blank text = ((blank text).take definition.header.headerEnd ++ left) ++ ("end" ++ after) := by
          rw [List.append_assoc, ← body, split]
        have ends : definition.stop = ((blank text).take definition.header.headerEnd ++ left).length + 3 := by
          rw [stopEq, found, List.length_append, taken]
          omega
        obtain ⟨before, later, textEq, beforeSize⟩ := exists_shown code (by decide)
        refine Stops.closed isEndless _ after code ends (by simpa using keyword) ⟨before, ?_⟩
        have three : definition.stop = (before ++ Text.ofString "end").length := by
          rw [ends, ← beforeSize, List.length_append]
          rfl
        rw [three, textEq, ← List.append_assoc, List.take_left]

end Definition

/-! ### What declarations say -/

/-- Whether what a declaration says about a definition holds in the text. -/
structure Declaration.Describes (declaration : Declaration) (text : Text) (definition : Definition) : Prop where
  start_lt : definition.start < declaration.nameRange.start
  name_lt : declaration.nameRange.start < declaration.nameRange.stop
  name_le : declaration.nameRange.stop ≤ definition.stop
  stop_le : definition.stop ≤ text.length
  name : (text.take declaration.nameRange.stop).drop declaration.nameRange.start = declaration.name
  sourceText : declaration.sourceText = (text.take definition.stop).drop definition.start
  keyword : "def" <+: declaration.sourceText
  counted : 0 < declaration.nameRange.line ∧ 0 < declaration.nameRange.column
  line : ∃ line, text.lines[declaration.nameRange.line - 1]? = some line ∧
    declaration.name <+: line.drop (declaration.nameRange.column - 1)
  firstLine : declaration.nameRange.line = declaration.relatedLines.1
  lastLine : declaration.relatedLines.1 ≤ declaration.relatedLines.2
  lines : declaration.relatedLines.2 ≤ text.lines.length
  stops : definition.Stops text

/-- The line and column of a word without newlines show where it stands. -/
theorem exists_line_of_word {before word after : Text} (absent : newline ∉ word) :
    let place := position (lineStarts (before ++ (word ++ after))) before.length
    0 < place.1 ∧ 0 < place.2 ∧ ∃ line, (before ++ (word ++ after)).lines[place.1 - 1]? = some line ∧
      word <+: line.drop (place.2 - 1) := by
  obtain ⟨above, front, rfl, whole, outside⟩ := Text.exists_last_line before
  rw [List.append_assoc]
  dsimp only
  rw [position_eq whole outside]
  refine ⟨Nat.succ_pos _, Nat.succ_pos _, firstLine (front ++ (word ++ after)), ?_, ?_⟩
  · rw [Nat.add_sub_cancel]
    exact Text.lines_whole whole _
  · rw [Nat.add_sub_cancel, Text.firstLine_append outside, Text.firstLine_append absent, List.drop_left]
    exact List.prefix_append _ _

theorem Definition.describes {text : Text} {definition : Definition} (member : definition ∈ all (blank text))
    (path : Text) : (definition.declared text path).Describes text definition := by
  obtain ⟨left, lead, rest, stands⟩ := exists_stands member
  have before := start_lt_nameBegin member
  have nameEnd := nameEnd_eq member
  have inside := nameEnd_le_stop member
  have stopLe := stop_le member
  rw [blank_length] at stopLe
  have nonempty := List.length_pos_iff.mpr stands.nonempty
  -- the keyword and the name stand in the text as in the code
  obtain ⟨above, below, textDef, aboveSize⟩ := exists_shown stands.code (by decide)
  have regrouped : blank text = (left ++ ("def" ++ lead)) ++ (definition.header.name ++ rest) := by
    rw [stands.code]
    simp
  obtain ⟨front, back, textName, frontSize⟩ :=
    exists_shown regrouped (name_visible stands.nonempty stands.named)
  rw [← stands.nameBegin] at frontSize
  rw [← stands.start] at aboveSize
  have placed := @exists_line_of_word front definition.header.name back (newline_not_mem_name stands.named)
  rw [← textName, frontSize] at placed
  have lineEq : (position (lineStarts text) definition.header.nameBegin).1 =
      (position (lineStarts text) definition.start).1 := by
    have absent : newline ∉ ("def" ++ lead : Text) := by
      rw [List.mem_append, not_or]
      exact ⟨by decide, stands.isLead.not_mem (by decide) (by decide) (by decide)⟩
    have code : blank text = left ++ (("def" ++ lead) ++ (definition.header.name ++ rest)) := by
      rw [regrouped, List.append_assoc]
    rw [position_line, position_line, stands.nameBegin, stands.start, count_newline_shown code absent]
  constructor
  case start_lt => exact before
  case name_lt =>
      change definition.header.nameBegin < definition.header.nameEnd
      omega
  case name_le => exact inside
  case stop_le => exact stopLe
  case name =>
      change (text.take definition.header.nameEnd).drop definition.header.nameBegin = definition.header.name
      rw [nameEnd, ← frontSize, ← List.length_append, textName, ← List.append_assoc, List.take_left, List.drop_left]
  case sourceText => rfl
  case keyword =>
      have three : definition.start + 3 ≤ definition.stop := by
        rw [stands.nameBegin, List.length_append, List.length_append] at nameEnd
        change _ = _ + (3 + _) + _ at nameEnd
        rw [stands.start]
        omega
      change "def" <+: (text.take definition.stop).drop definition.start
      rw [List.drop_take, textDef, ← aboveSize, List.drop_left, List.prefix_take_iff]
      refine ⟨List.prefix_append _ _, ?_⟩
      change 3 ≤ _
      omega
  case counted => exact ⟨placed.1, placed.2.1⟩
  case line => exact placed.2.2
  case firstLine => exact lineEq
  case lastLine =>
      change _ ≤ (position (lineStarts text) (max definition.start (definition.stop - 1))).1
      rw [position_line_max]
      exact Nat.le_max_left _ _
  case lines =>
      change (position (lineStarts text) (max definition.start (definition.stop - 1))).1 ≤ _
      rw [position_line, Text.lines_length]
      exact Nat.succ_le_succ ((List.take_sublist _ text).count_le newline)
  case stops => exact stops member

end Source

open AccessorLint.Source

/-- Every declaration is consistent with the text: each describes a definition of the code, in order, and the names of
two declarations do not meet. -/
theorem declarations_describe_text (text path : Text) :
    List.Forall₂ (fun definition declaration => declaration.Describes text definition)
        (Definition.all (blank text)) (Declaration.scan text path) ∧
      (Declaration.scan text path).Pairwise fun first second => first.nameRange.stop ≤ second.nameRange.start := by
  constructor
  · rw [Declaration.scan, List.forall₂_map_right_iff, List.forall₂_same]
    intro definition member
    exact definition.describes member path
  · rw [Declaration.scan, List.pairwise_map]
    refine (Definition.all_pairwise (blank text)).imp_of_mem ?_
    intro first second inFirst inSecond order
    exact Definition.names_apart inFirst inSecond order

end AccessorLint
