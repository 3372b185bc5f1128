import Mathlib
import AccessorLint.Proofs.Alignment
import AccessorLint.Proofs.Appended
import AccessorLint.Proofs.Locality
import AccessorLint.Proofs.Padding
set_option autoImplicit false

/-!
Literals, block comments and here-documents of padded texts.

Blanks move the machine that looks for the end of a literal and change nothing else, so a literal ends at the same place
of a padded text.  The lines of a block comment and of an indented here-document are told without their padding.  Only a
here-document that is not indented tells the texts apart, since padding hides its terminator.
-/

namespace AccessorLint.Source

open AccessorLint.Symbol (newline)
open AccessorLint.Text (WholeLines firstLine)

/-! ### What is shown -/

theorem Padded.hidden {left right : Text} (padded : Padded left right) :
    Padded (left.map hidden) (right.map hidden) := by
  have inside : ∀ {symbol : Symbol}, symbol ≠ newline → Source.hidden symbol = .glyph ' ' := fun other => if_neg other
  induction padded with
  | nil => exact .nil
  | symbol other _ ih =>
      rw [List.map_cons, List.map_cons, inside other]
      exact .symbol (by decide) ih
  | line _ ih => exact .line ih
  | @pad pad left right fills _ ih =>
      have filler : isFiller (Source.hidden pad) = true := by
        rw [inside (ne_newline_of_isFiller fills)]
        decide
      exact .pad filler ih

/-- Whether what is shown for the first symbols of two texts is padded as these symbols are. -/
structure ShownAlike (left right image copy : Text) : Prop where
  shown : Padded image copy
  place : PaddedAt left right image.length copy.length

namespace ShownAlike

theorem keep {left right : Text} {length size : Nat} (cut : PaddedAt left right length size) :
    ShownAlike left right (left.take length) (right.take size) where
  shown := cut.front
  place := cut.taken

theorem hide {left right : Text} {length size : Nat} (cut : PaddedAt left right length size) :
    ShownAlike left right ((left.take length).map hidden) ((right.take size).map hidden) where
  shown := cut.front.hidden
  place := by
    rw [List.length_map, List.length_map]
    exact cut.taken

theorem append {left right image copy more further : Text} (first : ShownAlike left right image copy)
    (second : ShownAlike (left.drop image.length) (right.drop copy.length) more further) :
    ShownAlike left right (image ++ more) (copy ++ further) where
  shown := first.shown.append second.shown
  place := by
    rw [List.length_append, List.length_append]
    exact first.place.add second.place

theorem keep_append {left right more further : Text} {length size : Nat} (cut : PaddedAt left right length size)
    (later : ShownAlike (left.drop length) (right.drop size) more further) :
    ShownAlike left right (left.take length ++ more) (right.take size ++ further) := by
  refine (keep cut).append ?_
  rw [List.length_take, List.length_take, ← List.drop_eq_drop_min, ← List.drop_eq_drop_min]
  exact later

theorem hide_append {left right more further : Text} {length size : Nat} (cut : PaddedAt left right length size)
    (later : ShownAlike (left.drop length) (right.drop size) more further) :
    ShownAlike left right ((left.take length).map hidden ++ more) ((right.take size).map hidden ++ further) := by
  refine (hide cut).append ?_
  rw [List.length_map, List.length_map, List.length_take, List.length_take, ← List.drop_eq_drop_min,
    ← List.drop_eq_drop_min]
  exact later

end ShownAlike

/-! ### Literals -/

namespace Frame

/-- Whether the delimiters of a frame are neither blank nor alphanumeric. -/
def Proper : Frame → Prop
  | .literal delimiters _ => delimiters.Proper
  | .embedded _ => True

/-- A blank moves the machine on, and changes nothing else. -/
theorem move_blank {frame : Frame} (proper : frame.Proper) (outer : List Frame) {symbol : Symbol}
    (blank : symbol.isBlank = true) (rest : Text) : frame.move outer symbol rest = some (frame, outer, 1) := by
  have differs : ∀ {other : Symbol}, other.isBlank = false → symbol ≠ other :=
    fun visible => Symbol.ne_of_property blank visible
  cases frame with
  | literal delimiters depth =>
      unfold move
      dsimp only
      rw [if_neg (differs (by decide)), if_neg, if_neg, if_neg (differs proper.closing_blank)]
      · simp [differs proper.opening_blank]
      · simp [differs (show (Symbol.glyph '#').isBlank = false by decide)]
  | embedded depth =>
      have noQuote : isQuote symbol = false := Symbol.isOneOf_of_isBlank blank (by decide)
      unfold move
      dsimp only
      rw [noQuote, if_neg (by decide), if_neg (differs (by decide)), if_neg (differs (by decide))]

theorem span_blank {frame : Frame} (proper : frame.Proper) (outer : List Frame) {symbol : Symbol}
    (blank : symbol.isBlank = true) (rest : Text) :
    frame.span outer (symbol :: rest) = frame.span outer rest + 1 := by
  rw [span_eq_move, move_blank proper outer blank, Nat.add_comm]
  rfl

theorem span_escape (delimiters : Delimiters) (depth : Nat) (outer : List Frame) (second : Symbol) (rest : Text) :
    (literal delimiters depth).span outer (.glyph '\\' :: second :: rest) =
      (literal delimiters depth).span outer rest + 1 + 1 := by
  rw [span_eq_move, move, if_pos rfl, List.length_cons, Nat.min_eq_left (by omega)]
  exact Nat.add_comm 2 _

theorem Proper.atDepth {frame : Frame} (proper : frame.Proper) (depth : Nat) : (frame.atDepth depth).Proper := by
  cases frame with
  | literal delimiters _ => exact proper
  | embedded _ => trivial

theorem move_proper {frame next : Frame} {outer around : List Frame} {symbol : Symbol} {rest : Text} {count : Nat}
    (proper : ∀ other ∈ frame :: outer, other.Proper)
    (moves : frame.move outer symbol rest = some (next, around, count)) : ∀ other ∈ next :: around, other.Proper := by
  obtain ⟨here, outside⟩ := List.forall_mem_cons.mp proper
  cases moved_of_move moves with
  | escape => exact proper
  | embed => exact List.forall_mem_cons.mpr ⟨trivial, proper⟩
  | quote quotes => exact List.forall_mem_cons.mpr ⟨Delimiters.quoted_proper quotes, proper⟩
  | stay depth => exact List.forall_mem_cons.mpr ⟨here.atDepth depth, outside⟩
  | leave inside => exact inside ▸ outside

/-- Of the text after a symbol, a move looks at most whether it starts with a brace, but for an escape. -/
theorem move_congr {frame : Frame} {outer : List Frame} {symbol : Symbol} {rest other : Text}
    (plain : symbol = .glyph '\\' → ∃ depth, frame = .embedded depth)
    (brace : other.head? = some (.glyph '\x7b') ↔ rest.head? = some (.glyph '\x7b')) :
    frame.move outer symbol other = frame.move outer symbol rest := by
  cases frame with
  | literal delimiters depth =>
      have noEscape : symbol ≠ .glyph '\\' := by
        intro escape
        obtain ⟨_, same⟩ := plain escape
        cases same
      unfold move
      simp only [if_neg noEscape, brace]
  | embedded depth => rfl

theorem move_inside {frame next : Frame} {outer around : List Frame} {symbol : Symbol} {rest : Text} {count : Nat}
    (inside : symbol ≠ newline) (plain : symbol = .glyph '\\' → ∃ depth, frame = .embedded depth)
    (moves : frame.move outer symbol rest = some (next, around, count)) : newline ∉ (symbol :: rest).take count := by
  have one : newline ∉ (symbol :: rest).take 1 := by
    rw [List.take_succ_cons, List.take_zero, List.mem_singleton]
    exact Ne.symm inside
  cases moved_of_move moves with
  | escape outside backslash =>
      obtain ⟨depth, same⟩ := plain backslash
      exact absurd same (outside depth)
  | embed hash brace =>
      obtain ⟨others, rfl⟩ := List.head?_eq_some_iff.mp brace
      rw [List.take_succ_cons, List.take_succ_cons, List.take_zero, hash]
      decide
  | quote => exact one
  | stay => exact one
  | leave => exact one

end Frame

theorem Padded.head?_eq {left right : Text} (padded : Padded left right) {symbol : Symbol}
    (visible : symbol.isBlank = false) : right.head? = some symbol ↔ left.head? = some symbol := by
  cases padded with
  | nil => rfl
  | symbol => rfl
  | line => rfl
  | pad fills =>
      have differs := Symbol.ne_of_property (isBlank_of_isFiller fills) visible
      simp [differs, newline_ne_of_visible visible]

/-- The machine stops at the same place of padded texts. -/
theorem Frame.span_padded {frame : Frame} {outer : List Frame} (proper : ∀ other ∈ frame :: outer, other.Proper)
    {left right : Text} (padded : Padded left right) :
    PaddedAt left right (frame.span outer left) (frame.span outer right) := by
  induction size : right.length using Nat.strong_induction_on generalizing frame outer left right with
  | _ length ih =>
      have here : frame.Proper := proper frame List.mem_cons_self
      cases padded with
      | nil =>
          rw [Frame.span]
          exact .zero .nil
      | @pad pad left right fills later =>
          have cut := ih right.length (by rw [← size, List.length_cons]; omega) proper later rfl
          rw [span_blank here outer isBlank_newline] at cut ⊢
          rw [span_blank here outer (isBlank_of_isFiller fills)]
          exact cut.pad fills
      | @line left right later =>
          rw [span_blank here outer isBlank_newline, span_blank here outer isBlank_newline]
          exact (ih right.length (by rw [← size, List.length_cons]; omega) proper later rfl).line
      | @symbol symbol left right inside later =>
          by_cases plain : symbol = .glyph '\\' → ∃ depth, frame = .embedded depth
          · have brace : right.head? = some (.glyph '\x7b') ↔ left.head? = some (.glyph '\x7b') :=
              later.head?_eq (by decide)
            rw [span_eq_move, span_eq_move, move_congr plain brace]
            cases moved : frame.move outer symbol left with
            | none => exact .zero (.symbol inside later)
            | some result =>
                obtain ⟨next, around, count⟩ := result
                have cut : PaddedAt (symbol :: left) (symbol :: right) count count :=
                  .same (.symbol inside later) (move_inside inside plain moved)
                have shorter : ((symbol :: right).drop count).length < length := by
                  have positive := (move_bounds moved).1
                  rw [← size, List.length_drop, List.length_cons]
                  omega
                exact cut.add (ih _ shorter (move_proper proper moved) cut.back rfl)
          · -- an escape passes one symbol after it, be it the newline or a blank before the newline
            obtain ⟨rfl, noCode⟩ := Classical.not_imp.mp plain
            cases frame with
            | embedded depth => exact absurd ⟨depth, rfl⟩ noCode
            | literal delimiters depth =>
                have shorter : ∀ {tail : Text}, tail.length ≤ right.length → tail.length < length := by
                  intro tail within
                  rw [← size, List.length_cons]
                  omega
                cases later with
                | nil =>
                    refine .same (.symbol inside .nil) fun member => ?_
                    exact inside (List.mem_singleton.mp (List.mem_of_mem_take member)).symm
                | symbol second later =>
                    rw [span_escape, span_escape]
                    exact ((ih _ (shorter (by simp)) proper later rfl).symbol second).symbol inside
                | line later =>
                    rw [span_escape, span_escape]
                    exact (ih _ (shorter (by simp)) proper later rfl).line.symbol inside
                | pad fills later =>
                    have cut := ih _ (shorter (by simp)) proper later rfl
                    rw [span_blank here outer isBlank_newline] at cut
                    rw [span_escape, span_escape]
                    exact (cut.pad fills).symbol inside

theorem Delimiters.image_padded {delimiters : Delimiters} (proper : delimiters.Proper) {left right : Text}
    (padded : Padded left right) :
    ShownAlike left right (delimiters.image left) (delimiters.image right) := by
  have cut : PaddedAt left right (delimiters.bodyLength left) (delimiters.bodyLength right) :=
    Frame.span_padded (List.forall_mem_singleton.mpr (show (Frame.literal delimiters 0).Proper from proper)) padded
  refine ShownAlike.hide_append cut (.keep (.same cut.back ?_))
  have closes := delimiters.bodyLength_stops left
  cases rest : left.drop (delimiters.bodyLength left) with
  | nil => exact List.not_mem_nil
  | cons next others =>
      rw [List.take_succ_cons, List.take_zero, List.mem_singleton, closes next (by rw [rest]; rfl)]
      exact newline_ne_of_visible proper.closing_blank

/-! ### Bodies made of lines -/

/-- Lines are counted alike, if padding does not decide whether a line counts. -/
theorem linesWhile_padded {property : Text → Bool} {left right : Text} (padded : Padded left right)
    (agrees : ∀ line ∈ left.lines.dropLast, ∀ pads : Text, (∀ symbol ∈ pads, isFiller symbol = true) →
      property (line ++ pads) = property line) :
    PaddedAt left right (linesWhile property left) (linesWhile property right) := by
  induction left using Text.line_induction generalizing right with
  | last line absent =>
      rcases padded.line_cases with ⟨-, rfl⟩ | ⟨first, _, below, _, _, _, lineEq, _, _⟩
      · rw [linesWhile_last property absent]
        split_ifs
        · exact .all padded (Nat.le_succ _) (Nat.le_succ _)
        · exact .zero padded
      · exact absurd (by simp [lineEq]) absent
  | line line below absent ih =>
      obtain ⟨later, rfl, rest⟩ := padded.of_front absent
      rcases rest.line_cases with ⟨outside, -⟩ | ⟨first, pads, below', lower, noFirst, fills, belowEq, rfl, lowerPadded⟩
      · exact absurd List.mem_cons_self outside
      obtain rfl : first = [] := by
        cases first with
        | nil => rfl
        | cons symbol others =>
            obtain ⟨rfl, -⟩ := List.cons.inj belowEq
            exact absurd List.mem_cons_self noFirst
      obtain ⟨-, rfl⟩ := List.cons.inj belowEq
      have lines : (line ++ newline :: below).lines.dropLast = line :: below.lines.dropLast := by
        rw [Text.lines_append_newline, Text.lines_of_not_mem absent, List.singleton_append,
          List.dropLast_cons_of_ne_nil (show below.lines ≠ [] from Text.split_ne_nil newline below)]
      rw [lines, List.forall_mem_cons] at agrees
      rw [List.nil_append, ← List.append_assoc, linesWhile_line property (newline_not_mem_line absent fills),
        linesWhile_line property absent, agrees.1 pads fills, List.append_assoc]
      split_ifs
      · have cut := PaddedAt.of_line absent fills (ih lowerPadded agrees.2)
        rw [List.length_append, Nat.add_assoc, Nat.add_assoc, Nat.add_comm 1, Nat.add_assoc, Nat.add_comm 1]
        exact cut
      · exact .zero padded

theorem endsBlockComment_padded (line : Text) {pads : Text} (fills : ∀ symbol ∈ pads, isFiller symbol = true) :
    endsBlockComment (line ++ pads) = endsBlockComment line := by
  cases pads with
  | nil => rw [List.append_nil]
  | cons pad others =>
      have blank := isBlank_of_isFiller (fills pad List.mem_cons_self)
      have starts : Text.startsWith (line ++ pad :: others) "=end" = Text.startsWith line "=end" :=
        startsWith_stop (not_mem_of_isBlank blank (by decide)) line others
      unfold endsBlockComment
      rw [starts]
      by_cases isEnd : Text.startsWith line "=end" = true
      · obtain ⟨rest, rfl⟩ := List.isPrefixOf_iff_prefix.mp isEnd
        have dropped : ∀ tail : Text, (Text.ofString "=end" ++ tail).drop 4 = tail := fun tail => rfl
        rw [List.append_assoc, dropped, dropped]
        cases rest with
        | nil => simp [Symbol.isWord_of_isBlank blank]
        | cons next later => rfl
      · rw [Bool.eq_false_iff.mpr isEnd, Bool.false_and, Bool.false_and]

/-- The lines below whole lines are lines of the text. -/
theorem mem_lines_append {above below line : Text} (whole : WholeLines above)
    (member : line ∈ below.lines.dropLast) : line ∈ (Text.lines (above ++ below)).dropLast := by
  rcases List.eq_nil_or_concat above with rfl | ⟨lines, last, rfl⟩
  · exact member
  · rw [List.concat_eq_append] at whole ⊢
    rw [whole last List.getLast?_concat, List.append_assoc, List.singleton_append, Text.lines_append_newline,
      List.dropLast_append_of_ne_nil (show below.lines ≠ [] from Text.split_ne_nil newline below)]
    exact List.mem_append_right _ member

namespace Heredoc

/-- Padding decides only whether a line ends a here-document that is not indented. -/
theorem endsAt_padded {heredoc : Heredoc} (words : ∀ symbol ∈ heredoc.terminator, symbol.isWord = true)
    {line pads : Text} (portable : heredoc.indented = true ∨ line ≠ heredoc.terminator)
    (fills : ∀ symbol ∈ pads, isFiller symbol = true) : heredoc.endsAt (line ++ pads) = heredoc.endsAt line := by
  unfold endsAt
  cases indented : heredoc.indented with
  | true =>
      rw [if_pos rfl, if_pos rfl, Text.trim_append_blanks line fun symbol member => isBlank_of_isFiller (fills symbol member)]
  | false =>
      rw [indented] at portable
      have other := portable.resolve_left (by decide)
      rw [if_neg (by decide), if_neg (by decide), beq_false_of_ne other, beq_eq_false_iff_ne]
      intro same
      cases pads with
      | nil => exact other (by rw [← same, List.append_nil])
      | cons pad others =>
          have word := words pad (by rw [← same]; simp)
          rw [Symbol.isWord_of_isBlank (isBlank_of_isFiller (fills pad List.mem_cons_self))] at word
          cases word

theorem image_padded {heredoc : Heredoc} (words : ∀ symbol ∈ heredoc.terminator, symbol.isWord = true)
    {left right : Text} (portable : heredoc.indented = true ∨ heredoc.terminator ∉ left.lines.dropLast)
    (padded : Padded left right) : ShownAlike left right (heredoc.image left) (heredoc.image right) := by
  have body : PaddedAt left right (heredoc.bodyLength left) (heredoc.bodyLength right) := by
    refine @linesWhile_padded (fun line => !heredoc.endsAt line) _ _ padded fun line member pads fills => ?_
    rw [endsAt_padded words _ fills]
    rcases portable with indented | absent
    · exact Or.inl indented
    · right
      rintro rfl
      exact absent member
  exact ShownAlike.hide_append body (.keep (.first body.back))

/-- The lines below a here-document are lines of the text. -/
theorem mem_lines_below (heredoc : Heredoc) {text line : Text}
    (member : line ∈ (Text.lines (text.drop (heredoc.image text).length)).dropLast) : line ∈ text.lines.dropLast := by
  obtain ⟨blanks, last, -, -, image | ⟨-, whole⟩⟩ := heredoc.image_shape text
  · have shown : WholeLines (heredoc.image text) := by
      rw [image, ← List.append_assoc]
      exact .append_newline _
    have lines : SameLines (heredoc.image text) (text.take (heredoc.image text).length) :=
      (heredoc.image_images text).flip.imp fun _ _ shows => ShownFor.newline_iff shows
    have inside := mem_lines_append (lines.wholeLines shown) member
    rwa [List.take_append_drop] at inside
  · rw [whole, List.drop_length] at member
    cases member

theorem images_padded {heredocs : List Heredoc}
    (words : ∀ heredoc ∈ heredocs, ∀ symbol ∈ heredoc.terminator, symbol.isWord = true) {left right : Text}
    (portable : ∀ heredoc ∈ heredocs, heredoc.indented = true ∨ heredoc.terminator ∉ left.lines.dropLast)
    (padded : Padded left right) : ShownAlike left right (images heredocs left) (images heredocs right) := by
  induction heredocs generalizing left right with
  | nil => exact ⟨.nil, .zero padded⟩
  | cons heredoc others ih =>
      rw [List.forall_mem_cons] at words portable
      have first := image_padded words.1 portable.1 padded
      refine first.append (ih words.2 ?_ first.place.back)
      intro other member
      rcases portable.2 other member with indented | absent
      · exact Or.inl indented
      · exact Or.inr fun inside => absent (heredoc.mem_lines_below inside)

end Heredoc

end AccessorLint.Source
