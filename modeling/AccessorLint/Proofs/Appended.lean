import Mathlib
import AccessorLint.Proofs.Contents
import AccessorLint.Proofs.Placement
set_option autoImplicit false

/-!
A text below whole lines is read as if it stood alone.

What starts at a place depends on the text behind it, but the start of a line counts like the start of the text, except
before a `?`.  So the copy of the text below is the same, and the definitions in it are the same ones at other offsets
and on other lines.
-/

namespace AccessorLint.Source

open AccessorLint.Symbol (newline)
open AccessorLint.Text (WholeLines firstLine)

/-! ### The start of a line -/

theorem head?_above {above : Text} (whole : WholeLines above) (near : Text) :
    (near ++ above.reverse).head? = near.head? ∨ near = [] ∧ (near ++ above.reverse).head? = some newline := by
  cases near with
  | cons symbol others => exact Or.inl rfl
  | nil =>
      rw [List.nil_append, List.head?_reverse]
      cases last : above.getLast? with
      | none => exact Or.inl rfl
      | some symbol => exact Or.inr ⟨rfl, by rw [whole symbol last]⟩

theorem any_head?_above {above : Text} (whole : WholeLines above) (near : Text) (property : Symbol → Bool)
    (outside : property newline = false) : (near ++ above.reverse).head?.any property = near.head?.any property := by
  rcases head?_above whole near with same | ⟨rfl, isNewline⟩
  · rw [same]
  · rw [isNewline]
    exact outside

theorem all_head?_above {above : Text} (whole : WholeLines above) (near : Text) (property : Symbol → Bool)
    (inside : property newline = true) : (near ++ above.reverse).head?.all property = near.head?.all property := by
  rcases head?_above whole near with same | ⟨rfl, isNewline⟩
  · rw [same]
  · rw [isNewline]
    exact inside

theorem head?_eq_above {above : Text} (whole : WholeLines above) (near : Text) {symbol : Symbol}
    (other : symbol ≠ newline) : (near ++ above.reverse).head? = some symbol ↔ near.head? = some symbol := by
  rcases head?_above whole near with same | ⟨rfl, isNewline⟩
  · rw [same]
  · rw [isNewline]
    constructor
    · intro isSymbol
      exact absurd (Option.some.inj isSymbol).symm other
    · intro impossible
      cases impossible

theorem startsRegex_above {above : Text} (whole : WholeLines above) (near after : Text) :
    startsRegex (near ++ above.reverse) after = startsRegex near after := by
  have gapped := any_head?_above whole near isGap (by decide)
  have first : ∀ next ∈ above.reverse.head?, next = newline := by
    intro next member
    exact whole next (by rwa [← List.head?_reverse])
  obtain ⟨gaps, rest, rfl, -, inGaps, stops⟩ := exists_run isGap near
  unfold startsRegex
  rw [gapped]
  cases rest with
  | nil =>
      -- Only gaps stand before it on the line, so an operand is due on both sides.
      have above? : (gaps ++ [] ++ above.reverse).dropWhile isGap = above.reverse := by
        rw [List.append_nil]
        exact dropWhile_run inGaps fun next member => by rw [first next member]; decide
      rw [above?, dropWhile_run inGaps stops]
      cases lines : above.reverse with
      | nil => rfl
      | cons previous earlier =>
          rw [first previous (by rw [lines]; rfl)]
          rfl
  | cons previous earlier =>
      have dropped : ∀ tail : Text, (gaps ++ previous :: tail).dropWhile isGap = previous :: tail :=
        fun tail => dropWhile_run inGaps fun next member => stops next member
      have word : (previous :: (earlier ++ above.reverse)).takeWhile Symbol.isWord =
          (previous :: earlier).takeWhile Symbol.isWord :=
        takeWhile_append_stop (previous :: earlier) fun next member => by rw [first next member]; decide
      rw [List.append_assoc, List.cons_append, dropped, dropped]
      simp only [word]

/-- What starts at a place does not depend on whole lines further up.  Only a `?` at the start of a text and one at the
start of a line differ. -/
theorem Opening.read_above {above : Text} (whole : WholeLines above) {near text : Text}
    (inside : near ≠ [] ∨ text.head? ≠ some (.glyph '?')) :
    Opening.read (near ++ above.reverse) text = Opening.read near text := by
  cases text with
  | nil => rfl
  | cons symbol after =>
      have lineStart := all_head?_above whole near (· = newline) (by decide)
      have percent : percentLiteral? (near ++ above.reverse) after = percentLiteral? near after := by
        unfold percentLiteral?
        rw [any_head?_above whole near _ (by decide)]
      have less := head?_eq_above whole near (show Symbol.glyph '<' ≠ newline by decide)
      have character : (symbol = .glyph '?' && startsCharacter (near ++ above.reverse) after) =
          (symbol = .glyph '?' && startsCharacter near after) := by
        by_cases isMark : symbol = .glyph '?'
        · have nonempty : near ≠ [] := inside.resolve_right fun differs => differs (by rw [isMark]; rfl)
          rw [startsCharacter.eq_def, startsCharacter.eq_def, List.head?_append_of_ne_nil _ nonempty]
        · rw [decide_eq_false isMark, Bool.false_and, Bool.false_and]
      rw [Opening.read, Opening.read, lineStart, percent, startsRegex_above whole, character]
      simp only [ne_eq, less]

namespace Blanking

/-- Two scans with the same text ahead and the same here-documents pending show the same if what lies behind them makes
no difference to what starts, here and later. -/
theorem rest_congr {first second : Blanking} (here : first.opening = second.opening)
    (later : ∀ front text, front ≠ [] →
      Opening.read (front ++ first.behind) text = Opening.read (front ++ second.behind) text)
    (ahead : first.ahead = second.ahead) (pending : first.pending = second.pending) : first.rest = second.rest := by
  induction size : first.ahead.length using Nat.strong_induction_on generalizing first second with
  | _ length ih =>
      by_cases ended : first.ahead = []
      · rw [rest_of_nil ended, rest_of_nil (ahead ▸ ended)]
      have image : first.image = second.image := by
        rw [Blanking.image, Blanking.image, here, ahead, pending]
      have positive := image_pos ended
      have within := first.image_length_le
      have shorter := first.step_ahead_length
      have stepAhead : first.step.ahead = second.step.ahead := by
        rw [first.step_moves.ahead, second.step_moves.ahead, ahead, image]
      have passed : (first.ahead.take first.image.length).reverse ≠ [] := by
        rw [ne_eq, List.reverse_eq_nil_iff, ← List.length_eq_zero_iff, List.length_take]
        omega
      have firstBehind := first.step_moves.behind
      have secondBehind := second.step_moves.behind
      rw [← ahead, ← image] at secondBehind
      rw [rest_eq first, rest_eq second, image]
      congr 1
      refine ih first.step.ahead.length (by omega) ?_ ?_ stepAhead ?_ rfl
      · rw [opening, opening, firstBehind, secondBehind, ← stepAhead]
        exact later _ _ passed
      · intro front text _
        rw [firstBehind, secondBehind, ← List.append_assoc, ← List.append_assoc]
        exact later _ _ (List.append_ne_nil_of_right_ne_nil front passed)
      · rw [step_pending, step_pending, here, pending]

end Blanking

theorem SameLines.wholeLines {left right : Text} (same : SameLines left right) (whole : WholeLines left) :
    WholeLines right := by
  intro last member
  have reversed := List.rel_reverse same
  rw [← List.head?_reverse] at member
  obtain ⟨others, rightEq⟩ := List.head?_eq_some_iff.mp member
  rw [rightEq] at reversed
  obtain ⟨first, firsts, both, -, leftEq⟩ := List.forall₂_cons_right_iff.mp reversed
  refine both.mp (whole first ?_)
  rw [← List.head?_reverse, leftEq]
  rfl

/-- Below whole lines after which no here-document is pending, the copy is that of the text alone. -/
theorem blank_appended {above below : Text} {scan : Blanking} (whole : WholeLines above)
    (starts : below.head? ≠ some (.glyph '?')) (arrives : scan.Arrives (above ++ below) above.length)
    (settled : scan.pending = []) :
    ∃ shown, blank (above ++ below) = shown ++ blank below ∧ shown.length = above.length ∧ WholeLines shown := by
  obtain ⟨behind, ahead⟩ := arrives.split
  have same : scan.rest = blank below := by
    rw [Blanking.blank_eq_rest]
    refine Blanking.rest_congr ?_ ?_ ahead settled
    · rw [Blanking.opening, behind, ahead]
      exact @Opening.read_above above whole [] below (Or.inr starts)
    · intro front text nonempty
      rw [behind]
      exact (Opening.read_above whole (Or.inl nonempty)).trans (by rw [Blanking.start, List.append_nil])
  have copy : blank (above ++ below) = scan.shown.reverse ++ blank below := by rw [arrives.copy, same]
  have size := congrArg List.length copy
  simp only [blank_length, List.length_append, Nat.add_right_cancel_iff] at size
  refine ⟨scan.shown.reverse, copy, size.symm, ?_⟩
  have lines := sameLines_blank (above ++ below)
  rw [copy] at lines
  have upper : SameLines above scan.shown.reverse := by
    have taken := List.forall₂_take above.length lines
    rwa [List.take_left, size, List.take_left] at taken
  exact upper.wholeLines whole

/-! ### Definitions -/

theorem isKeywordPlace_above {above : Text} (whole : WholeLines above) (near after : Text) :
    isKeywordPlace (near ++ above.reverse) after = isKeywordPlace near after := by
  match near with
  | [] =>
      rcases head?_above whole [] with same | ⟨-, isNewline⟩
      · rw [List.nil_append, List.head?_nil, List.head?_eq_none_iff] at same
        rw [same]
        rfl
      · obtain ⟨others, aboveEq⟩ := List.head?_eq_some_iff.mp isNewline
        rw [aboveEq]
        rfl
  | [only] =>
      have next {symbol : Symbol} (other : symbol ≠ newline) := head?_eq_above whole [] other
      simp only [isKeywordPlace, List.cons_append, List.head?_cons, List.drop_succ_cons, List.drop_zero, ne_eq,
        next (show Symbol.glyph '.' ≠ newline by decide), next (show Symbol.glyph ':' ≠ newline by decide)]
      rfl
  | first :: second :: others => rfl

namespace Block

/-- The search for the end of a block looks behind only to tell keywords. -/
theorem extent_congr (block : Block) {left right : Text}
    (alike : ∀ front after, isKeywordPlace (front ++ left) after = isKeywordPlace (front ++ right) after)
    (ahead : Text) : block.extent left ahead = block.extent right ahead := by
  induction size : ahead.length using Nat.strong_induction_on generalizing block left right ahead with
  | _ length ih =>
      obtain ⟨filler, text, rfl, -, fills, stops⟩ := exists_run isFiller ahead
      have reads : block.read (filler.reverse ++ left) text = block.read (filler.reverse ++ right) text := by
        simp only [read, alike]
      rw [extent_eq block left filler text fills stops, extent_eq block right filler text fills stops, reads]
      by_cases ended : text = []
      · rw [if_pos ended, if_pos ended]
      · rw [if_neg ended, if_neg ended]
        cases reading : block.read (filler.reverse ++ right) text with
        | closed length => rfl
        | goesOn next length =>
            have progress := read_progress ended reading
            have shorter : (text.drop length).length < (filler ++ text).length := by
              have positive := List.length_pos_iff.mpr ended
              rw [List.length_drop, List.length_append]
              omega
            dsimp only
            rw [ih _ (size ▸ shorter) next (fun front after => by
              simpa only [List.append_assoc] using alike (front ++ ((text.take length).reverse ++ filler.reverse)) after)
              (text.drop length) rfl]

end Block

namespace Definition

/-- The definition at an offset that is so much greater. -/
def moved (distance : Nat) (definition : Definition) : Definition where
  start := definition.start + distance
  header := definition.header.shift distance
  stop := definition.stop + distance

theorem at?_above {above : Text} (whole : WholeLines above) (near ahead : Text) :
    at? (near ++ above.reverse) ahead = (at? near ahead).map (moved above.length) := by
  have same : opens (near ++ above.reverse) ahead = opens near ahead := by
    unfold opens
    rw [any_head?_above whole near _ (by decide), isKeywordPlace_above whole]
  have size : (near ++ above.reverse).length = near.length + above.length := by
    rw [List.length_append, List.length_reverse]
  rw [at?_eq, at?_eq, same]
  split_ifs
  · cases Header.read? ahead with
    | none => rfl
    | some header =>
        have body : bodyLength header.endless ((ahead.take header.headerEnd).reverse ++ (near ++ above.reverse))
            (ahead.drop header.headerEnd) =
            bodyLength header.endless ((ahead.take header.headerEnd).reverse ++ near)
              (ahead.drop header.headerEnd) := by
          unfold bodyLength
          rw [Block.extent_congr Block.opened]
          intro front after
          rw [← List.append_assoc, ← List.append_assoc, isKeywordPlace_above whole, List.append_assoc]
        simp only [Option.map_some, moved, Header.shift, size, body, Option.some.injEq, Definition.mk.injEq,
          Header.mk.injEq, true_and, and_true]
        omega
  · rfl

theorem within_above {above : Text} (whole : WholeLines above) (near text : Text) :
    Definition.within (near ++ above.reverse) text = (Definition.within near text).map (moved above.length) := by
  induction text generalizing near with
  | nil => rfl
  | cons symbol rest ih =>
      rw [Definition.within, Definition.within, List.map_append, ← ih, List.cons_append, at?_above whole]
      cases at? near (symbol :: rest) with
      | none => rfl
      | some definition => rfl

theorem exists_earlier (behind left right : Text) :
    ∃ earlier, Definition.within behind (left ++ right) = earlier ++ Definition.within (left.reverse ++ behind) right ∧
      ∀ definition ∈ earlier, definition.start < behind.length + left.length := by
  induction left generalizing behind with
  | nil =>
      refine ⟨[], rfl, ?_⟩
      intro definition member
      cases member
  | cons symbol rest ih =>
      obtain ⟨earlier, split, before⟩ := ih (symbol :: behind)
      refine ⟨(at? behind (symbol :: (rest ++ right))).toList ++ earlier, ?_, ?_⟩
      · rw [List.cons_append, Definition.within, split, List.append_assoc, List.reverse_cons, List.append_assoc]
        rfl
      · intro definition member
        rw [List.length_cons]
        rcases List.mem_append.mp member with here | later
        · rw [at?_start (Option.mem_toList.mp here)]
          omega
        · have earlierStart := before definition later
          rw [List.length_cons] at earlierStart
          omega

/-- The definitions of a text below whole lines are those of the text alone, after those that start above. -/
theorem all_appended {above below : Text} {scan : Blanking} (whole : WholeLines above)
    (starts : below.head? ≠ some (.glyph '?')) (arrives : scan.Arrives (above ++ below) above.length)
    (settled : scan.pending = []) :
    ∃ earlier, all (blank (above ++ below)) = earlier ++ (all (blank below)).map (moved above.length) ∧
      ∀ definition ∈ earlier, definition.start < above.length := by
  obtain ⟨shown, copy, size, wholeShown⟩ := blank_appended whole starts arrives settled
  obtain ⟨earlier, split, before⟩ := exists_earlier [] shown (blank below)
  refine ⟨earlier, ?_, ?_⟩
  · rw [all, copy, split, List.append_nil, all, ← size]
    exact congrArg (earlier ++ ·) (within_above wholeShown [] (blank below))
  · intro definition member
    have earlierStart := before definition member
    rw [List.length_nil, size] at earlierStart
    omega

/-- The definitions that start below whole lines are those of the text alone, and come after all others. -/
theorem all_divided {above below : Text} {scan : Blanking} (whole : WholeLines above)
    (starts : below.head? ≠ some (.glyph '?')) (arrives : scan.Arrives (above ++ below) above.length)
    (settled : scan.pending = []) :
    (all (blank (above ++ below))).filter (above.length ≤ ·.start) = (all (blank below)).map (moved above.length) ∧
      all (blank (above ++ below)) = (all (blank (above ++ below))).filter (·.start < above.length) ++
        (all (blank (above ++ below))).filter (above.length ≤ ·.start) := by
  obtain ⟨earlier, split, starting⟩ := all_appended whole starts arrives settled
  have lower : ∀ definition ∈ (all (blank below)).map (moved above.length), above.length ≤ definition.start := by
    intro definition member
    obtain ⟨origin, -, rfl⟩ := List.mem_map.mp member
    exact Nat.le_add_left _ _
  have later : (all (blank (above ++ below))).filter (above.length ≤ ·.start) =
      (all (blank below)).map (moved above.length) := by
    have none : earlier.filter (above.length ≤ ·.start) = [] := by
      rw [List.filter_eq_nil_iff]
      intro definition member
      simpa using starting definition member
    rw [split, List.filter_append, none, List.nil_append, List.filter_eq_self]
    intro definition member
    exact decide_eq_true (lower definition member)
  have before : (all (blank (above ++ below))).filter (·.start < above.length) = earlier := by
    have none : ((all (blank below)).map (moved above.length)).filter (·.start < above.length) = [] := by
      rw [List.filter_eq_nil_iff]
      intro definition member
      simpa using lower definition member
    rw [split, List.filter_append, none, List.append_nil, List.filter_eq_self]
    intro definition member
    exact decide_eq_true (starting definition member)
  exact ⟨later, by rw [before, later, split]⟩

end Definition

/-! ### Declarations -/

theorem position_appended {above : Text} (whole : WholeLines above) {below : Text} {offset : Nat}
    (within : offset ≤ below.length) :
    position (lineStarts (above ++ below)) (offset + above.length) =
      ((position (lineStarts below) offset).1 + above.count newline, (position (lineStarts below) offset).2) := by
  obtain ⟨lines, front, rest, rfl, rfl, wholeLines, absent⟩ := Text.exists_line_at within
  have together := position_eq (whole.append wholeLines) absent rest
  have sum : (above ++ lines ++ front).length = (lines ++ front).length + above.length := by
    rw [List.append_assoc, List.length_append, Nat.add_comm]
  rw [List.append_assoc, sum, List.count_append] at together
  rw [together, position_eq wholeLines absent rest, Prod.mk.injEq]
  exact ⟨by omega, rfl⟩

theorem position_line_appended (above below : Text) (offset : Nat) :
    (position (lineStarts (above ++ below)) (offset + above.length)).1 =
      (position (lineStarts below) offset).1 + above.count newline := by
  rw [position_line, position_line, Nat.add_comm offset, List.take_length_add_append, List.count_append]
  omega

/-- The declaration below more text. -/
def Declaration.lowered (above : Text) (declaration : Declaration) : Declaration :=
  { declaration with
    nameRange :=
      { declaration.nameRange with
        start := declaration.nameRange.start + above.length
        stop := declaration.nameRange.stop + above.length
        line := declaration.nameRange.line + above.count newline }
    relatedLines :=
      (declaration.relatedLines.1 + above.count newline, declaration.relatedLines.2 + above.count newline) }

theorem Definition.declared_moved {above below : Text} (whole : WholeLines above) {definition : Definition}
    (member : definition ∈ all (blank below)) (path : Text) :
    (definition.moved above.length).declared (above ++ below) path = (definition.declared below path).lowered above := by
  have named := start_lt_nameBegin member
  have ended := nameEnd_le_stop member
  have nameSize := nameEnd_eq member
  have size := blank_length below
  have stopWithin := stop_le member
  have place : position (lineStarts (above ++ below)) (definition.header.nameBegin + above.length) = _ :=
    position_appended whole (by omega)
  have last : max (definition.start + above.length) (definition.stop + above.length - 1) =
      max definition.start (definition.stop - 1) + above.length := by omega
  have source : ((above ++ below).take (definition.stop + above.length)).drop (definition.start + above.length) =
      (below.take definition.stop).drop definition.start := by
    rw [Nat.add_comm definition.stop, Nat.add_comm definition.start, List.take_length_add_append,
      List.drop_length_add_append]
  simp only [declared, Declaration.ofDefinition, Declaration.lowered, moved, Header.shift, place, last, source,
    position_line_appended]

end AccessorLint.Source
