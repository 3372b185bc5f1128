import Mathlib
import AccessorLint.Source.Extent
import AccessorLint.Proofs.Lines
import AccessorLint.Proofs.Symbols
set_option autoImplicit false

/-!
Blanks at the ends of lines.

A text is padded by putting blanks before newlines; a carriage return before each newline is one way to do so.  Two
such texts agree line by line up to the padding, so what is read of one line, and ends before a blank, is the same in
both.
-/

namespace AccessorLint.Source

open AccessorLint.Symbol (newline)
open AccessorLint.Text (firstLine)

/-- Whether the second text is the first one with blanks put before newlines. -/
inductive Padded : Text → Text → Prop where
  | nil : Padded [] []
  | symbol {symbol : Symbol} {left right : Text} (inside : symbol ≠ newline) (later : Padded left right) :
      Padded (symbol :: left) (symbol :: right)
  | line {left right : Text} (later : Padded left right) : Padded (newline :: left) (newline :: right)
  | pad {pad : Symbol} {left right : Text} (fills : isFiller pad = true) (later : Padded (newline :: left) right) :
      Padded (newline :: left) (pad :: right)

theorem isBlank_of_isFiller {symbol : Symbol} (fills : isFiller symbol = true) : symbol.isBlank = true :=
  (Bool.and_eq_true_iff.mp fills).1

theorem ne_newline_of_isFiller {symbol : Symbol} (fills : isFiller symbol = true) : symbol ≠ newline :=
  bne_iff_ne.mp (Bool.and_eq_true_iff.mp fills).2

theorem newline_not_mem_fillers {pads : Text} (fills : ∀ symbol ∈ pads, isFiller symbol = true) : newline ∉ pads :=
  fun member => ne_newline_of_isFiller (fills newline member) rfl

/-- A line has no newline, with padding either. -/
theorem newline_not_mem_line {line pads : Text} (absent : newline ∉ line)
    (fills : ∀ symbol ∈ pads, isFiller symbol = true) : newline ∉ line ++ pads := by
  rw [List.mem_append, not_or]
  exact ⟨absent, newline_not_mem_fillers fills⟩

theorem isBlank_newline : newline.isBlank = true := by
  decide

theorem newline_ne_of_visible {symbol : Symbol} (visible : symbol.isBlank = false) : newline ≠ symbol :=
  Symbol.ne_of_property isBlank_newline visible

namespace Padded

theorem of_absent {text : Text} (absent : newline ∉ text) : Padded text text := by
  induction text with
  | nil => exact .nil
  | cons symbol rest ih =>
      rw [List.mem_cons, not_or] at absent
      exact .symbol (Ne.symm absent.1) (ih absent.2)

theorem append {left right more further : Text} (first : Padded left right) (second : Padded more further) :
    Padded (left ++ more) (right ++ further) := by
  induction first with
  | nil => exact second
  | symbol inside _ ih => exact .symbol inside ih
  | line _ ih => exact .line ih
  | pad fills _ ih => exact .pad fills ih

theorem add_pads {pads left right : Text} (fills : ∀ symbol ∈ pads, isFiller symbol = true)
    (padded : Padded (newline :: left) right) : Padded (newline :: left) (pads ++ right) := by
  induction pads with
  | nil => exact padded
  | cons pad others ih =>
      rw [List.forall_mem_cons] at fills
      exact .pad fills.1 (ih fills.2)

theorem eq_nil {right : Text} (padded : Padded [] right) : right = [] := by
  cases padded
  rfl

/-- A padded text is the same line, or the same line with padding before a newline and a padded text below. -/
theorem line_cases {left right : Text} (padded : Padded left right) :
    newline ∉ left ∧ right = left ∨
      ∃ line pads below lower, newline ∉ line ∧ (∀ symbol ∈ pads, isFiller symbol = true) ∧
        left = line ++ newline :: below ∧ right = line ++ (pads ++ newline :: lower) ∧ Padded below lower := by
  induction padded with
  | nil => exact Or.inl ⟨List.not_mem_nil, rfl⟩
  | @symbol symbol left right inside later ih =>
      rcases ih with ⟨absent, rfl⟩ | ⟨line, pads, below, lower, absent, fills, rfl, rfl, lowerPadded⟩
      · left
        refine ⟨?_, rfl⟩
        rw [List.mem_cons, not_or]
        exact ⟨Ne.symm inside, absent⟩
      · right
        refine ⟨symbol :: line, pads, below, lower, ?_, fills, rfl, rfl, lowerPadded⟩
        rw [List.mem_cons, not_or]
        exact ⟨Ne.symm inside, absent⟩
  | @line left right later ih => exact Or.inr ⟨[], [], left, right, List.not_mem_nil, by simp, rfl, rfl, later⟩
  | @pad pad left right isPad later ih =>
      rcases ih with ⟨absent, -⟩ | ⟨line, pads, below, lower, absent, fills, leftEq, rfl, lowerPadded⟩
      · exact absurd List.mem_cons_self absent
      · cases line with
        | nil =>
            refine Or.inr ⟨[], pad :: pads, below, lower, List.not_mem_nil, ?_, leftEq, rfl, lowerPadded⟩
            rw [List.forall_mem_cons]
            exact ⟨isPad, fills⟩
        | cons first others =>
            obtain ⟨rfl, -⟩ := List.cons.inj leftEq
            exact absurd List.mem_cons_self absent

theorem of_line {line pads below lower : Text} (absent : newline ∉ line)
    (fills : ∀ symbol ∈ pads, isFiller symbol = true) (later : Padded below lower) :
    Padded (line ++ newline :: below) (line ++ (pads ++ newline :: lower)) :=
  (of_absent absent).append (add_pads fills (.line later))

/-- Up to the first newline the texts are the same. -/
theorem of_front {front back right : Text} (padded : Padded (front ++ back) right) (absent : newline ∉ front) :
    ∃ later, right = front ++ later ∧ Padded back later := by
  induction front generalizing right with
  | nil => exact ⟨right, rfl, padded⟩
  | cons symbol others ih =>
      rw [List.mem_cons, not_or] at absent
      rw [List.cons_append] at padded
      cases padded with
      | symbol _ later =>
          obtain ⟨rest, rfl, padded⟩ := ih later absent.2
          exact ⟨rest, rfl, padded⟩
      | line => exact absurd rfl absent.1
      | pad => exact absurd rfl absent.1

/-- After the last newline the texts are the same. -/
theorem last_line {left right : Text} (padded : Padded left right) :
    newline ∉ left ∧ right = left ∨
      ∃ above upper line, newline ∉ line ∧ left = above ++ newline :: line ∧ right = upper ++ newline :: line := by
  induction padded with
  | nil => exact Or.inl ⟨List.not_mem_nil, rfl⟩
  | @symbol symbol left right inside later ih =>
      rcases ih with ⟨absent, rfl⟩ | ⟨above, upper, line, absent, rfl, rfl⟩
      · left
        refine ⟨?_, rfl⟩
        rw [List.mem_cons, not_or]
        exact ⟨Ne.symm inside, absent⟩
      · exact Or.inr ⟨symbol :: above, symbol :: upper, line, absent, rfl, rfl⟩
  | line later ih =>
      rcases ih with ⟨absent, rfl⟩ | ⟨above, upper, line, absent, rfl, rfl⟩
      · exact Or.inr ⟨[], [], _, absent, rfl, rfl⟩
      · exact Or.inr ⟨newline :: above, newline :: upper, line, absent, rfl, rfl⟩
  | @pad pad left right fills later ih =>
      rcases ih with ⟨absent, -⟩ | ⟨above, upper, line, absent, leftEq, rfl⟩
      · exact absurd List.mem_cons_self absent
      · exact Or.inr ⟨above, pad :: upper, line, absent, leftEq, rfl⟩

theorem count_newline {left right : Text} (padded : Padded left right) :
    right.count newline = left.count newline := by
  induction padded with
  | nil => rfl
  | symbol inside _ ih => rw [List.count_cons_of_ne inside, List.count_cons_of_ne inside, ih]
  | line _ ih => rw [List.count_cons_self, List.count_cons_self, ih]
  | pad fills _ ih => rw [List.count_cons_of_ne (ne_newline_of_isFiller fills), ih]

/-- What is read of a line and ends before a blank is the same in both texts. -/
theorem congr {β : Type} {reading : Text → β} {left right : Text} (padded : Padded left right)
    (stops : ∀ line, newline ∉ line → (line = [] → left.head? = some newline) →
      ∀ (stop : Symbol) (below : Text), stop.isBlank = true → .glyph '/' ∉ firstLine (stop :: below) →
        reading (line ++ stop :: below) = reading line) : reading right = reading left := by
  rcases padded.line_cases with ⟨-, rfl⟩ | ⟨line, pads, below, lower, absent, fills, rfl, rfl, -⟩
  · rfl
  have ended : line = [] → (line ++ newline :: below).head? = some newline := by
    rintro rfl
    rfl
  have noSlash : ∀ text : Text, .glyph '/' ∉ firstLine (newline :: text) := by
    intro text member
    cases member
  rw [stops line absent ended newline below isBlank_newline (noSlash below)]
  cases pads with
  | nil => exact stops line absent ended newline lower isBlank_newline (noSlash lower)
  | cons pad others =>
      apply stops line absent ended pad _ (isBlank_of_isFiller (fills pad List.mem_cons_self))
      intro member
      have inPads : Symbol.glyph '/' ∈ pad :: others := Text.mem_of_mem_firstLine_append member
      cases fills _ inPads

end Padded

/-! ### Cuts -/

/-- Whether two texts are padded before and after a cut. -/
structure PaddedAt (left right : Text) (length size : Nat) : Prop where
  front : Padded (left.take length) (right.take size)
  back : Padded (left.drop length) (right.drop size)

namespace PaddedAt

theorem whole {left right : Text} {length size : Nat} (cut : PaddedAt left right length size) : Padded left right := by
  have joined := cut.front.append cut.back
  rwa [List.take_append_drop, List.take_append_drop] at joined

theorem zero {left right : Text} (padded : Padded left right) : PaddedAt left right 0 0 :=
  ⟨.nil, padded⟩

theorem of_append {front upper back lower : Text} (first : Padded front upper) (second : Padded back lower) :
    PaddedAt (front ++ back) (upper ++ lower) front.length upper.length where
  front := by
    rw [List.take_left, List.take_left]
    exact first
  back := by
    rw [List.drop_left, List.drop_left]
    exact second

theorem all {left right : Text} (padded : Padded left right) {length size : Nat} (leftWhole : left.length ≤ length)
    (rightWhole : right.length ≤ size) : PaddedAt left right length size where
  front := by
    rw [List.take_of_length_le leftWhole, List.take_of_length_le rightWhole]
    exact padded
  back := by
    rw [List.drop_of_length_le leftWhole, List.drop_of_length_le rightWhole]
    exact .nil

theorem add {left right : Text} {length size more further : Nat} (first : PaddedAt left right length size)
    (second : PaddedAt (left.drop length) (right.drop size) more further) :
    PaddedAt left right (length + more) (size + further) where
  front := by
    rw [List.take_add, List.take_add]
    exact first.front.append second.front
  back := by
    rw [← List.drop_drop, ← List.drop_drop]
    exact second.back

/-- A cut beyond the end of a text is one at its end. -/
theorem taken {left right : Text} {length size : Nat} (cut : PaddedAt left right length size) :
    PaddedAt left right (left.take length).length (right.take size).length where
  front := by
    rw [List.length_take, List.length_take, ← List.take_eq_take_min, ← List.take_eq_take_min]
    exact cut.front
  back := by
    rw [List.length_take, List.length_take, ← List.drop_eq_drop_min, ← List.drop_eq_drop_min]
    exact cut.back

/-- A cut behind a line that starts both texts. -/
theorem shift {front left right : Text} {length size : Nat} (absent : newline ∉ front)
    (cut : PaddedAt left right length size) :
    PaddedAt (front ++ left) (front ++ right) (front.length + length) (front.length + size) := by
  refine (of_append (.of_absent absent) cut.whole).add ?_
  rw [List.drop_left, List.drop_left]
  exact cut

theorem symbol {symbol : Symbol} {left right : Text} {length size : Nat} (inside : symbol ≠ newline)
    (cut : PaddedAt left right length size) : PaddedAt (symbol :: left) (symbol :: right) (length + 1) (size + 1) :=
  ⟨.symbol inside cut.front, cut.back⟩

theorem line {left right : Text} {length size : Nat} (cut : PaddedAt left right length size) :
    PaddedAt (newline :: left) (newline :: right) (length + 1) (size + 1) :=
  ⟨.line cut.front, cut.back⟩

theorem pad {pad : Symbol} {left right : Text} {length size : Nat} (fills : isFiller pad = true)
    (cut : PaddedAt (newline :: left) right (length + 1) size) :
    PaddedAt (newline :: left) (pad :: right) (length + 1) (size + 1) :=
  ⟨.pad fills cut.front, cut.back⟩

theorem pads {pads left right : Text} {length size : Nat} (fills : ∀ symbol ∈ pads, isFiller symbol = true)
    (cut : PaddedAt (newline :: left) right (length + 1) size) :
    PaddedAt (newline :: left) (pads ++ right) (length + 1) (pads.length + size) := by
  induction pads with
  | nil =>
      rw [List.nil_append, List.length_nil, Nat.zero_add]
      exact cut
  | cons first others ih =>
      rw [List.forall_mem_cons] at fills
      rw [List.length_cons, Nat.add_right_comm]
      exact pad fills.1 (ih fills.2)

/-- On the first line a cut is at the same offset in both texts. -/
theorem same {left right : Text} (padded : Padded left right) {length : Nat} (absent : newline ∉ left.take length) :
    PaddedAt left right length length := by
  induction length generalizing left right with
  | zero => exact zero padded
  | succ length ih =>
      cases padded with
      | nil => exact ⟨.nil, .nil⟩
      | symbol inside later =>
          rw [List.take_succ_cons, List.mem_cons, not_or] at absent
          exact (ih later absent.2).symbol inside
      | line => exact absurd List.mem_cons_self absent
      | pad => exact absurd List.mem_cons_self absent

/-- A cut after a line, its padding and its newline. -/
theorem of_line {line pads below lower : Text} (absent : newline ∉ line)
    (fills : ∀ symbol ∈ pads, isFiller symbol = true) {length size : Nat} (cut : PaddedAt below lower length size) :
    PaddedAt (line ++ newline :: below) (line ++ (pads ++ newline :: lower)) (line.length + (length + 1))
      (line.length + (pads.length + (size + 1))) :=
  shift absent (PaddedAt.pads fills cut.line)

/-- A cut after the first line and its newline. -/
theorem first {left right : Text} (padded : Padded left right) :
    PaddedAt left right ((firstLine left).length + 1) ((firstLine right).length + 1) := by
  rcases padded.line_cases with ⟨absent, rfl⟩ | ⟨line, pads, below, lower, absent, fills, rfl, rfl, later⟩
  · have size := Text.firstLine_of_not_mem absent
    rw [size]
    exact all padded (Nat.le_succ _) (Nat.le_succ _)
  · have cut := of_line absent fills (zero later)
    rw [Text.firstLine_append_newline absent, ← List.append_assoc,
      Text.firstLine_append_newline (newline_not_mem_line absent fills), List.length_append, Nat.add_assoc,
      List.append_assoc]
    exact cut

end PaddedAt

end AccessorLint.Source
