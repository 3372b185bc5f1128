import Mathlib
import AccessorLint.Proofs.Blanking
set_option autoImplicit false

/-!
Blanking keeps every place of a text.

The copy that shows the code is as long as the text and has its newlines where the text has them.  The scan ends: each
of its steps passes a symbol, and so do the moves of the machine that looks for the end of a literal and the lines and
bodies of here-documents, however the text is malformed.
-/

namespace AccessorLint.Source

open AccessorLint.Symbol (newline)
open AccessorLint.Text (firstLine)

/-! ### Newlines -/

theorem hidden_eq_newline_iff (symbol : Symbol) : hidden symbol = newline ↔ symbol = newline := by
  unfold hidden
  constructor
  · intro same
    split at same
    · assumption
    · cases same
  · intro isNewline
    rw [if_pos isNewline]

theorem ShownFor.newline_iff {original shown : Symbol} (shows : ShownFor original shown) :
    shown = newline ↔ original = newline := by
  rcases shows with rfl | rfl
  · exact Iff.rfl
  · exact hidden_eq_newline_iff original

theorem blank_getElem {text : Text} {offset : Nat} {original : Symbol} (found : text[offset]? = some original) :
    ∃ shown, (blank text)[offset]? = some shown ∧ ShownFor original shown := by
  obtain ⟨inside, originalEq⟩ := List.getElem?_eq_some_iff.mp found
  have aligned : offset < (blank text).length := by
    rw [blank_length]
    exact inside
  have shows := (List.forall₂_iff_get.mp (blank_images text)).2 offset inside aligned
  rw [List.get_eq_getElem, List.get_eq_getElem, originalEq] at shows
  exact ⟨(blank text)[offset], List.getElem?_eq_getElem aligned, shows⟩

theorem blank_newline_iff (text : Text) (offset : Nat) :
    (blank text)[offset]? = some newline ↔ text[offset]? = some newline := by
  cases found : text[offset]? with
  | none =>
      have beyond := List.getElem?_eq_none_iff.mp found
      rw [← blank_length text] at beyond
      rw [List.getElem?_eq_none beyond]
  | some original =>
      obtain ⟨shown, shownEq, shows⟩ := blank_getElem found
      rw [shownEq, Option.some_inj, Option.some_inj]
      exact shows.newline_iff

/-! ### The machine of literals, move by move -/

namespace Frame

/-- What a closing symbol does: it closes a nested bracket, or the innermost frame. -/
def close (shallower : Nat → Frame) (outer : List Frame) : Nat → Option (Frame × List Frame × Nat)
  | depth + 1 => some (shallower depth, outer, 1)
  | 0 => outer.head?.map fun around => (around, outer.tail, 1)

/-- One move of the machine inside some frames: the frames it is in afterwards and the number of symbols it reads, or
nothing where the symbol closes the outermost frame. -/
def move (outer : List Frame) (symbol : Symbol) (rest : Text) : Frame → Option (Frame × List Frame × Nat)
  | .literal delimiters depth =>
      if symbol = .glyph '\\' then some (.literal delimiters depth, outer, min 2 (rest.length + 1))
      else if delimiters.interpolates && symbol = .glyph '#' && rest.head? = some (.glyph '\x7b') then
        some (.embedded 0, .literal delimiters depth :: outer, 2)
      else if delimiters.opening ≠ delimiters.closing && symbol = delimiters.opening then
        some (.literal delimiters (depth + 1), outer, 1)
      else if symbol = delimiters.closing then close (.literal delimiters) outer depth
      else some (.literal delimiters depth, outer, 1)
  | .embedded depth =>
      if isQuote symbol then some (.literal (.quoted symbol) 0, .embedded depth :: outer, 1)
      else if symbol = .glyph '\x7b' then some (.embedded (depth + 1), outer, 1)
      else if symbol = .glyph '\x7d' then close .embedded outer depth
      else some (.embedded depth, outer, 1)

/-- The machine reads what its move says, and goes on from there. -/
theorem span_eq_move (frame : Frame) (outer : List Frame) (symbol : Symbol) (rest : Text) :
    frame.span outer (symbol :: rest) =
      match frame.move outer symbol rest with
      | none => 0
      | some (next, around, count) => count + next.span around ((symbol :: rest).drop count) := by
  cases frame with
  | literal delimiters depth =>
      rw [Frame.span.eq_def]
      unfold move
      dsimp only
      split_ifs with escapes embeds opens closes
      · cases rest with
        | nil => rfl
        | cons second others =>
            rw [Nat.min_eq_left (by simp)]
            rfl
      · cases rest with
        | nil => simp at embeds
        | cons second others => rfl
      · rfl
      · cases depth with
        | succ depth => rfl
        | zero => cases outer <;> rfl
      · rfl
  | embedded depth =>
      rw [Frame.span.eq_def]
      unfold move
      dsimp only
      split_ifs with quotes opens closes
      · rfl
      · rfl
      · cases depth with
        | succ depth => rfl
        | zero => cases outer <;> rfl
      · rfl

/-- A frame of the same kind, with so many nested brackets open. -/
def atDepth (depth : Nat) : Frame → Frame
  | .literal delimiters _ => .literal delimiters depth
  | .embedded _ => .embedded depth

/-- What a move can do.  It reads two symbols at once only where it escapes one or enters code. -/
inductive Moved (frame : Frame) (outer : List Frame) (symbol : Symbol) (rest : Text) : Frame → List Frame → Nat → Prop
    where
  | escape (outside : ∀ depth, frame ≠ .embedded depth) (backslash : symbol = .glyph '\\') :
      Moved frame outer symbol rest frame outer (min 2 (rest.length + 1))
  | embed (hash : symbol = .glyph '#') (brace : rest.head? = some (.glyph '\x7b')) :
      Moved frame outer symbol rest (.embedded 0) (frame :: outer) 2
  | quote (quotes : isQuote symbol = true) :
      Moved frame outer symbol rest (.literal (.quoted symbol) 0) (frame :: outer) 1
  | stay (depth : Nat) : Moved frame outer symbol rest (frame.atDepth depth) outer 1
  | leave {around : Frame} {others : List Frame} (inside : outer = around :: others) :
      Moved frame outer symbol rest around others 1

theorem close_moved {frame next : Frame} {outer around : List Frame} {depth count : Nat} {symbol : Symbol} {rest : Text}
    (closes : close (fun depth => frame.atDepth depth) outer depth = some (next, around, count)) :
    Moved frame outer symbol rest next around count := by
  cases depth with
  | succ depth =>
      cases closes
      exact .stay depth
  | zero =>
      cases outer with
      | nil => cases closes
      | cons first others =>
          cases closes
          exact .leave rfl

theorem moved_of_move {frame next : Frame} {outer around : List Frame} {symbol : Symbol} {rest : Text} {count : Nat}
    (moves : frame.move outer symbol rest = some (next, around, count)) :
    Moved frame outer symbol rest next around count := by
  cases frame with
  | literal delimiters depth =>
      unfold move at moves
      dsimp only at moves
      split_ifs at moves with escapes embeds opens closes
      · cases moves
        exact .escape (fun _ => nofun) escapes
      · cases moves
        simp only [Bool.and_eq_true, decide_eq_true_eq] at embeds
        exact .embed embeds.1.2 embeds.2
      · cases moves
        exact .stay (depth + 1)
      · exact close_moved moves
      · cases moves
        exact .stay depth
  | embedded depth =>
      unfold move at moves
      dsimp only at moves
      split_ifs at moves with quotes opens closes
      · cases moves
        exact .quote quotes
      · cases moves
        exact .stay (depth + 1)
      · exact close_moved moves
      · cases moves
        exact .stay depth

/-- A move reads at least one symbol, and no more than there are. -/
theorem move_bounds {frame next : Frame} {outer around : List Frame} {symbol : Symbol} {rest : Text} {count : Nat}
    (moves : frame.move outer symbol rest = some (next, around, count)) :
    0 < count ∧ count ≤ (symbol :: rest).length := by
  rw [List.length_cons]
  cases moved_of_move moves with
  | escape => omega
  | embed hash brace =>
      obtain ⟨others, rfl⟩ := List.head?_eq_some_iff.mp brace
      rw [List.length_cons]
      omega
  | quote => omega
  | stay => omega
  | leave => omega

end Frame

/-! ### Openings lie in the text -/

/-- Whether a text is long enough for what starts it, as far as that reaches beyond the first symbol. -/
def Opening.Fits (text : Text) : Opening → Prop
  | .literal delimiters length => length + delimiters.bodyLength (text.drop length) ≤ text.length
  | .heredoc _ length => length ≤ text.length
  | .character => 2 ≤ text.length
  | _ => True

theorem Opening.read_fits (behind text : Text) : (Opening.read behind text).Fits text := by
  cases text with
  | nil => exact trivial
  | cons symbol after =>
      have opens := Opening.read_opens behind symbol after
      have literal : ∀ {delimiters : Delimiters} {length : Nat}, length ≤ (symbol :: after).length →
          (Opening.literal delimiters length).Fits (symbol :: after) := by
        intro delimiters length within
        have body := delimiters.bodyLength_le ((symbol :: after).drop length)
        rw [List.length_drop] at body
        change length + _ ≤ _
        omega
      generalize Opening.read behind (symbol :: after) = opening at opens
      cases opens with
      | quoted quote => exact literal (by simp)
      | regex same => exact literal (by simp)
      | percent same delimiters length found =>
          apply literal
          rw [List.length_cons]
          rcases (percentLiteral?_shape found).2.2.2 with ⟨rfl, first⟩ | ⟨kind, -, rfl, both⟩
          · have one := congrArg List.length first
            rw [List.length_take, List.length_singleton] at one
            omega
          · have two := congrArg List.length both
            rw [List.length_take] at two
            change _ = 2 at two
            omega
      | heredoc same double announced length found =>
          obtain ⟨lead, tail, rest, split, size, -⟩ := Heredoc.announced?_shape found
          have covered := congrArg List.length split
          rw [List.length_drop, @List.length_append _ (lead ++ _ ++ _)] at covered
          have two : 2 ≤ (symbol :: after).length := by
            obtain ⟨others, rfl⟩ := List.head?_eq_some_iff.mp double
            simp
          change length ≤ _
          omega
      | character same starts =>
          cases after with
          | nil => cases starts
          | cons second others => exact Nat.le_add_left 2 _
      | lineEnd => exact trivial
      | blockComment => exact trivial
      | comment => exact trivial
      | code => exact trivial

/-! ### Here-documents -/

namespace Heredoc

/-- The body of a here-document is read line by line, and each line that does not end it is passed. -/
theorem bodyLength_line (heredoc : Heredoc) {line : Text} (absent : newline ∉ line) (rest : Text) :
    heredoc.bodyLength (line ++ newline :: rest) =
      if heredoc.endsAt line then 0 else line.length + 1 + heredoc.bodyLength rest := by
  change linesWhile (fun line => !heredoc.endsAt line) (line ++ newline :: rest) = _
  rw [linesWhile_line _ absent]
  cases heredoc.endsAt line <;> rfl

/-- The body of a here-document and the line of its terminator take up at least one symbol. -/
theorem image_pos (heredoc : Heredoc) {text : Text} (nonempty : text ≠ []) : 0 < (heredoc.image text).length := by
  have positive := List.length_pos_iff.mpr nonempty
  simp only [image, List.length_append, List.length_map, List.length_take, List.length_drop]
  omega

end Heredoc

/-! ### The scan ends -/

namespace Blanking

/-- Whether a scan has passed symbols and lost none. -/
structure Advances (before after : Blanking) : Prop where
  kept : after.behind.reverse ++ after.ahead = before.behind.reverse ++ before.ahead
  passes : after.ahead.length < before.ahead.length
  aligned : after.shown.length + after.ahead.length = before.shown.length + before.ahead.length

theorem Moves.advances {before after : Blanking} {image : Text} (moves : Moves before after image)
    (positive : 0 < image.length) (within : image.length ≤ before.ahead.length) : before.Advances after where
  kept := by
    rw [moves.behind, moves.ahead, List.reverse_append, List.reverse_reverse, List.append_assoc,
      List.take_append_drop]
  passes := by
    rw [moves.ahead, List.length_drop]
    omega
  aligned := by
    rw [moves.shown, moves.ahead, List.length_append, List.length_reverse, List.length_drop]
    omega

theorem step_advances {scan : Blanking} (more : scan.ahead ≠ []) : scan.Advances scan.step :=
  scan.step_moves.advances (image_pos more) scan.image_length_le

theorem skipBody_advances {scan : Blanking} (more : scan.ahead ≠ []) (heredoc : Heredoc) :
    scan.Advances (scan.skipBody heredoc) :=
  (skipBody_moves heredoc scan).advances (heredoc.image_pos more) (heredoc.image_length_le scan.ahead)

/-- As many steps as there are symbols ahead reach the end of the text. -/
theorem run_ends (steps : Nat) {scan : Blanking} (enough : scan.ahead.length ≤ steps) : (run steps scan).ahead = [] := by
  induction steps generalizing scan with
  | zero => exact List.length_eq_zero_iff.mp (Nat.le_zero.mp enough)
  | succ steps ih =>
      rw [run]
      by_cases ended : scan.ahead = []
      · rw [step_of_nil ended]
        apply ih
        rw [ended]
        exact Nat.zero_le steps
      · have passes := (step_advances ended).passes
        exact ih (by omega)

end Blanking

end AccessorLint.Source

namespace AccessorLint

open AccessorLint.Symbol (newline)
open AccessorLint.Source

/-- Blanking ends, whatever the text: every step of the scan, every move of the machine that looks for the end of a
literal, every line of a here-document and every body passes symbols that are there.  The copy has a symbol or a space
for each symbol of the text, and newlines exactly where the text has them. -/
theorem blanking_keeps_alignment (text : Text) :
    (blank text).length = text.length ∧
      (∀ (offset : Nat) (original : Symbol), text[offset]? = some original →
        (blank text)[offset]? = some original ∨
          original ≠ newline ∧ (blank text)[offset]? = some (.glyph ' ')) ∧
      (∀ offset : Nat, (blank text)[offset]? = some newline ↔ text[offset]? = some newline) ∧
      (Blanking.run text.length (Blanking.start text)).ahead = [] ∧
      (∀ scan : Blanking, scan.ahead ≠ [] → scan.Advances scan.step ∧ scan.opening.Fits scan.ahead) ∧
      (∀ (frame : Frame) (outer : List Frame) (symbol : Symbol) (rest : Text),
        match frame.move outer symbol rest with
        | none => frame.span outer (symbol :: rest) = 0
        | some (next, around, count) => 0 < count ∧ count ≤ (symbol :: rest).length ∧
            frame.span outer (symbol :: rest) = count + next.span around ((symbol :: rest).drop count)) ∧
      (∀ (heredoc : Heredoc) (line rest : Text), newline ∉ line →
        heredoc.bodyLength (line ++ newline :: rest) =
          if heredoc.endsAt line then 0 else (line ++ [newline]).length + heredoc.bodyLength rest) ∧
      ∀ (heredoc : Heredoc) (scan : Blanking), scan.ahead ≠ [] → scan.Advances (scan.skipBody heredoc) := by
  refine ⟨blank_length text, ?_, blank_newline_iff text, Blanking.run_ends text.length (Nat.le_refl _), ?_, ?_, ?_, ?_⟩
  · intro offset original found
    obtain ⟨shown, shownEq, same | isHidden⟩ := blank_getElem found
    · rw [shownEq, same]
      exact Or.inl rfl
    · rw [shownEq, isHidden, Source.hidden]
      by_cases isNewline : original = newline
      · rw [if_pos isNewline, isNewline]
        exact Or.inl rfl
      · rw [if_neg isNewline]
        exact Or.inr ⟨isNewline, rfl⟩
  · intro scan more
    exact ⟨Blanking.step_advances more, Opening.read_fits scan.behind scan.ahead⟩
  · intro frame outer symbol rest
    have spans := frame.span_eq_move outer symbol rest
    cases moves : frame.move outer symbol rest with
    | none =>
        rw [moves] at spans
        exact spans
    | some moved =>
        obtain ⟨next, around, count⟩ := moved
        have bounds := Frame.move_bounds moves
        rw [moves] at spans
        exact ⟨bounds.1, bounds.2, spans⟩
  · intro heredoc line rest absent
    rw [heredoc.bodyLength_line absent, List.length_append]
    rfl
  · intro heredoc scan more
    exact Blanking.skipBody_advances more heredoc

end AccessorLint
