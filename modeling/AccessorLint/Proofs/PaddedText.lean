import Mathlib
import AccessorLint.Proofs.PaddedLiterals
set_option autoImplicit false

/-!
The copy of a padded text.

Two scans that stand at the same place of a text and of a padded text go on alike: either both take the step that the
line asks for, or the second passes a blank before the newline at which the first waits.  If padding hides no terminator
of a here-document, the copies are padded as the texts are.
-/

namespace AccessorLint.Source

open AccessorLint.Symbol (newline)
open AccessorLint.Text (firstLine)

/-! ### Openings -/

/-- What starts on a line does not depend on its padding. -/
theorem Opening.read_padded (behind : Text) {left right : Text} (padded : Padded left right)
    (inside : left.head? ≠ some newline) : Opening.read behind right = Opening.read behind left := by
  apply padded.congr
  intro line absent starts stop below blank last
  exact Opening.read_stop behind (fun ended => inside (starts ended)) absent blank last

theorem literal_no_newline {behind after : Text} {symbol : Symbol} {delimiters : Delimiters} {length : Nat}
    (inside : symbol ≠ newline) (opens : Opens behind symbol after (.literal delimiters length)) :
    newline ∉ (symbol :: after).take length := by
  cases opens with
  | quoted =>
      rw [List.take_succ_cons, List.take_zero, List.mem_singleton]
      exact Ne.symm inside
  | percent _ _ _ found =>
      obtain ⟨-, noBlank, -, ⟨rfl, taken⟩ | ⟨kind, isKind, rfl, taken⟩⟩ := percentLiteral?_shape found
      · rw [List.take_succ_cons, taken, List.mem_cons, List.mem_singleton, not_or]
        exact ⟨Ne.symm inside, newline_ne_of_visible noBlank⟩
      · have noKind : newline ≠ kind := by
          rintro rfl
          cases isKind
        rw [List.take_succ_cons, taken, List.mem_cons, List.mem_cons, List.mem_singleton, not_or, not_or]
        exact ⟨Ne.symm inside, noKind, newline_ne_of_visible noBlank⟩
  | regex =>
      rw [List.take_succ_cons, List.take_zero, List.mem_singleton]
      exact Ne.symm inside

/-- What starts on a line, comments apart, is shown alike. -/
theorem Opening.image_padded {behind after right : Text} {symbol : Symbol} {opening : Opening}
    (pending : List Heredoc) (inside : symbol ≠ newline) (opens : Opens behind symbol after opening)
    (padded : Padded (symbol :: after) right) (noComment : opening ≠ .comment) (noBlock : opening ≠ .blockComment) :
    ShownAlike (symbol :: after) right (opening.image pending (symbol :: after)) (opening.image pending right) := by
  have one : PaddedAt (symbol :: after) right 1 1 := by
    apply PaddedAt.same padded
    rw [List.take_succ_cons, List.take_zero, List.mem_singleton]
    exact Ne.symm inside
  cases opening with
  | lineEnd =>
      cases opens with
      | lineEnd same => exact absurd same inside
  | blockComment => exact absurd rfl noBlock
  | comment => exact absurd rfl noComment
  | literal delimiters length =>
      have cut := PaddedAt.same padded (literal_no_newline inside opens)
      exact .keep_append cut (delimiters.image_padded opens.proper cut.back)
  | heredoc announced length =>
      cases opens with
      | heredoc same double _ _ found =>
          exact .keep (.same padded (Blanking.announcement_no_newline same double found))
  | character =>
      refine .keep_append one (.hide (.same one.back ?_))
      cases opens with
      | character _ starts =>
          cases after with
          | nil => cases starts
          | cons second others =>
              simp only [startsCharacter, Bool.and_eq_true, Bool.not_eq_true'] at starts
              rw [List.drop_succ_cons, List.drop_zero, List.take_succ_cons, List.take_zero, List.mem_singleton]
              exact newline_ne_of_visible starts.1.1
  | code => exact .keep one

/-! ### Comments -/

/-- Whether what is shown for the first symbols of two texts is padded as these symbols are, up to padding that is
passed before the newline at which the first text goes on. -/
structure TrailsAlike (left right image copy : Text) : Prop where
  shown : ∃ whole pads, copy = whole ++ pads ∧ Padded image whole ∧ (∀ symbol ∈ pads, isFiller symbol = true) ∧
    (pads = [] ∨ (left.drop image.length).head? = some newline)
  back : Padded (left.drop image.length) (right.drop copy.length)
  ends : ∀ next ∈ (left.drop image.length).head?, next = newline

private theorem hide_line (text : Text) (length : Nat) :
    (text.take (length + (firstLine (text.drop length)).length)).map hidden =
        (text.take length).map hidden ++ (firstLine (text.drop length)).map hidden ∧
      text.drop ((text.take (length + (firstLine (text.drop length)).length)).map hidden).length =
        (text.drop length).drop (firstLine (text.drop length)).length := by
  constructor
  · rw [List.take_add, Text.take_firstLine, List.map_append]
  · rw [List.length_map, List.length_take, ← List.drop_eq_drop_min, List.drop_drop]

/-- A comment that ends with the line which a cut comes to. -/
theorem trailsAlike_line {left right : Text} {length size : Nat} (cut : PaddedAt left right length size) :
    TrailsAlike left right ((left.take (length + (firstLine (left.drop length)).length)).map hidden)
      ((right.take (size + (firstLine (right.drop size)).length)).map hidden) := by
  obtain ⟨imageEq, leftDrop⟩ := hide_line left length
  obtain ⟨copyEq, rightDrop⟩ := hide_line right size
  generalize (left.take (length + (firstLine (left.drop length)).length)).map hidden = image at imageEq leftDrop ⊢
  generalize (right.take (size + (firstLine (right.drop size)).length)).map hidden = copy at copyEq rightDrop ⊢
  have front := cut.front.hidden
  have back := cut.back
  generalize left.drop length = rest at imageEq leftDrop back
  generalize right.drop size = other at copyEq rightDrop back
  rcases back.line_cases with ⟨absent, rfl⟩ | ⟨line, pads, below, lower, absent, fills, rfl, rfl, later⟩
  · rw [Text.firstLine_of_not_mem absent] at imageEq leftDrop copyEq rightDrop
    rw [List.drop_length] at leftDrop rightDrop
    constructor
    · refine ⟨_, [], (List.append_nil _).symm, ?_, by simp, Or.inl rfl⟩
      rw [imageEq, copyEq]
      exact front.append (Padded.of_absent absent).hidden
    · rw [leftDrop, rightDrop]
      exact .nil
    · rw [leftDrop]
      intro next member
      cases member
  · rw [Text.firstLine_append_newline absent] at imageEq leftDrop
    rw [← List.append_assoc, Text.firstLine_append_newline (newline_not_mem_line absent fills)] at copyEq rightDrop
    rw [List.drop_left] at leftDrop rightDrop
    constructor
    · rw [leftDrop, imageEq, copyEq, List.map_append, ← List.append_assoc]
      refine ⟨_, pads.map hidden, rfl, front.append (Padded.of_absent absent).hidden, ?_, Or.inr rfl⟩
      intro symbol member
      obtain ⟨pad, inside, rfl⟩ := List.mem_map.mp member
      rw [hidden, if_neg (ne_newline_of_isFiller (fills pad inside))]
      decide
    · rw [leftDrop, rightDrop]
      exact .line later
    · rw [leftDrop]
      intro next member
      exact (Option.some.inj member).symm

/-- Comments are shown alike, up to the padding of their last lines. -/
theorem Opening.image_comment {left right : Text} {opening : Opening} (pending : List Heredoc)
    (padded : Padded left right) (comment : opening = .comment ∨ opening = .blockComment) :
    TrailsAlike left right (opening.image pending left) (opening.image pending right) := by
  rcases comment with rfl | rfl
  · have trails := trailsAlike_line (.zero padded)
    rw [Nat.zero_add, Nat.zero_add] at trails
    exact trails
  · refine trailsAlike_line (@linesWhile_padded (fun line => !endsBlockComment line) _ _ padded ?_)
    intro line _ pads fills
    rw [endsBlockComment_padded line fills]

/-! ### Two scans -/

/-- Whether what stands behind two places is read alike, with whatever between it and the place. -/
def ReadsAlike (behind other : Text) : Prop :=
  ∀ front text : Text, Opening.read (front ++ other) text = Opening.read (front ++ behind) text

theorem ReadsAlike.past {behind other front upper : Text} (alike : ReadsAlike behind other ∨ newline ∈ front)
    (padded : Padded front upper) : ReadsAlike (front.reverse ++ behind) (upper.reverse ++ other) := by
  intro more text
  rcases padded.last_line with ⟨absent, rfl⟩ | ⟨above, higher, line, -, rfl, rfl⟩
  · rw [← List.append_assoc, ← List.append_assoc]
    exact alike.resolve_right absent _ text
  · have fenced : Fenced (more ++ (line.reverse ++ [newline])) := ⟨newline, by simp, by decide, by decide⟩
    have split : ∀ far tail : Text, more ++ ((far ++ newline :: line).reverse ++ tail) =
        (more ++ (line.reverse ++ [newline])) ++ (far.reverse ++ tail) := by
      intro far tail
      simp
    rw [split, split, Opening.read_fenced fenced, Opening.read_fenced fenced]

namespace Blanking

/-- Whether two scans stand at the same place of a text and of a padded text.  Where the first waits at a newline, the
second may be about to pass the padding before it. -/
structure PaddedScan (first second : Blanking) : Prop where
  ahead : Padded first.ahead second.ahead
  pending : second.pending = first.pending
  behind : ReadsAlike first.behind second.behind ∨ ∀ next ∈ first.ahead.head?, next = newline

/-- Whether padding hides no terminator of a here-document whose body starts here. -/
def Portable (scan : Blanking) : Prop :=
  scan.ahead.head? = some newline → ∀ heredoc ∈ scan.pending,
    heredoc.indented = true ∨ heredoc.terminator ∉ (Text.lines (scan.ahead.drop 1)).dropLast

/-- A step of both scans, where what is shown is padded as the symbols are. -/
theorem PaddedScan.step_shown {first second : Blanking} (scans : PaddedScan first second)
    (opening : second.opening = first.opening)
    (shown : ShownAlike first.ahead second.ahead first.image second.image)
    (behind : ReadsAlike first.behind second.behind ∨ newline ∈ first.ahead.take first.image.length) :
    PaddedScan first.step second.step where
  ahead := by
    rw [first.step_moves.ahead, second.step_moves.ahead]
    exact shown.place.back
  pending := by
    rw [step_pending, step_pending, opening, scans.pending]
  behind := by
    left
    rw [first.step_moves.behind, second.step_moves.behind]
    exact ReadsAlike.past behind shown.place.front

theorem isPlain_of_isFiller {symbol : Symbol} (fills : isFiller symbol = true) : isPlain symbol = true := by
  have others : symbol.isOneOf "=#\"'`%</?" = false := Symbol.isOneOf_of_isBlank (isBlank_of_isFiller fills) (by decide)
  rw [isPlain, others, Bool.and_eq_true, bne_iff_ne]
  exact ⟨ne_newline_of_isFiller fills, rfl⟩

/-- The second scan passes a blank, while the first waits at the newline. -/
theorem PaddedScan.step_pad {first second : Blanking} (scans : PaddedScan first second) {below right : Text}
    {pad : Symbol} (ahead : first.ahead = newline :: below) (secondAhead : second.ahead = pad :: right)
    (fills : isFiller pad = true) (later : Padded (newline :: below) right) :
    second.image = [pad] ∧ PaddedScan first second.step := by
  have opening : second.opening = .code := by
    rw [Blanking.opening, secondAhead]
    exact Opening.read_plain _ (isPlain_of_isFiller fills) right
  have image : second.image = [pad] := by
    rw [Blanking.image, opening, secondAhead]
    rfl
  refine ⟨image, ?_, ?_, ?_⟩
  · rw [second.step_moves.ahead, image, secondAhead, ahead]
    exact later
  · rw [step_pending, opening]
    exact scans.pending
  · right
    rw [ahead]
    intro next member
    exact (Option.some.inj member).symm

/-- Both scans end a line. -/
theorem PaddedScan.step_line {first second : Blanking} (scans : PaddedScan first second) (sound : first.Sound)
    (portable : first.Portable) {below right : Text} (ahead : first.ahead = newline :: below)
    (secondAhead : second.ahead = newline :: right) (later : Padded below right) :
    PaddedScan first.step second.step ∧ Padded first.image second.image := by
  have firstOpening : first.opening = .lineEnd := by
    rw [Blanking.opening, ahead, Opening.read, if_pos rfl]
  have secondOpening : second.opening = .lineEnd := by
    rw [Blanking.opening, secondAhead, Opening.read, if_pos rfl]
  have shown : ShownAlike first.ahead second.ahead first.image second.image := by
    rw [Blanking.image, Blanking.image, firstOpening, secondOpening, scans.pending, ahead, secondAhead]
    refine .keep_append (PaddedAt.zero later).line (Heredoc.images_padded sound ?_ later)
    have portableBelow := portable (by rw [ahead]; rfl)
    rwa [ahead] at portableBelow
  refine ⟨scans.step_shown (secondOpening.trans firstOpening.symm) shown (Or.inr ?_), shown.shown⟩
  have image : first.image = newline :: Heredoc.images first.pending below := by
    rw [Blanking.image, firstOpening, ahead]
    rfl
  rw [ahead, image, List.length_cons, List.take_succ_cons]
  exact List.mem_cons_self

/-- What one step of a scan does to the scan of a padded text: it passes a blank while the first scan waits at a
newline, or both take a step and show the same, up to padding before a newline. -/
theorem PaddedScan.step {first second : Blanking} (scans : PaddedScan first second) (sound : first.Sound)
    (portable : first.Portable) (more : first.ahead ≠ []) :
    (∃ pad below, second.image = [pad] ∧ isFiller pad = true ∧ first.ahead = newline :: below ∧
        PaddedScan first second.step) ∨
      PaddedScan first.step second.step ∧
        ∃ whole pads, second.image = whole ++ pads ∧ Padded first.image whole ∧
          (∀ symbol ∈ pads, isFiller symbol = true) ∧ (pads = [] ∨ first.step.ahead.head? = some newline) := by
  obtain ⟨symbol, after, ahead⟩ := List.exists_cons_of_ne_nil more
  have padded := scans.ahead
  rw [ahead] at padded
  by_cases atLine : symbol = newline
  · subst atLine
    generalize secondAhead : second.ahead = right at padded
    cases padded with
    | symbol inside => exact absurd rfl inside
    | @pad pad _ right fills later =>
        obtain ⟨image, next⟩ := scans.step_pad ahead secondAhead fills later
        exact Or.inl ⟨pad, after, image, fills, ahead, next⟩
    | line later =>
        obtain ⟨next, shown⟩ := scans.step_line sound portable ahead secondAhead later
        exact Or.inr ⟨next, second.image, [], (List.append_nil _).symm, shown, by simp, Or.inl rfl⟩
  · right
    have noLine : first.ahead.head? ≠ some newline := by
      rw [ahead]
      exact fun same => atLine (Option.some.inj same)
    have alike : ReadsAlike first.behind second.behind := by
      rcases scans.behind with alike | waits
      · exact alike
      · exact absurd (waits symbol (by rw [ahead]; rfl)) atLine
    have opening : second.opening = first.opening := by
      rw [Blanking.opening, Blanking.opening, ← Opening.read_padded first.behind scans.ahead noLine]
      exact alike [] second.ahead
    have opens := Blanking.opens_of_ahead ahead
    have secondImage : second.image = first.opening.image first.pending second.ahead := by
      rw [Blanking.image, opening, scans.pending]
    by_cases comment : first.opening = .comment ∨ first.opening = .blockComment
    · have trails := Opening.image_comment first.pending scans.ahead comment
      rw [← secondImage] at trails
      change TrailsAlike _ _ first.image _ at trails
      obtain ⟨whole, pads, image, shown, fills, atEnd⟩ := trails.shown
      rw [← first.step_moves.ahead] at atEnd
      refine ⟨⟨?_, ?_, ?_⟩, whole, pads, image, shown, fills, atEnd⟩
      · rw [first.step_moves.ahead, second.step_moves.ahead]
        exact trails.back
      · rw [step_pending, step_pending, opening, scans.pending]
      · right
        rw [first.step_moves.ahead]
        exact trails.ends
    · rw [not_or] at comment
      have shown := Opening.image_padded first.pending atLine opens padded comment.1 comment.2
      rw [← ahead, ← secondImage] at shown
      exact ⟨scans.step_shown opening shown (Or.inl alike), second.image, [], (List.append_nil _).symm, shown.shown,
        by simp, Or.inl rfl⟩

/-- What the rest of a scan shows is padded in the scan of a padded text. -/
theorem PaddedScan.rest {first second : Blanking} (scans : PaddedScan first second) (sound : first.Sound)
    (portable : ∀ steps, (run steps first).Portable) : Padded first.rest second.rest := by
  induction size : second.ahead.length using Nat.strong_induction_on generalizing first second with
  | _ length ih =>
      by_cases ended : first.ahead = []
      · have padded := scans.ahead
        rw [ended] at padded
        rw [rest_of_nil ended, rest_of_nil padded.eq_nil]
        exact .nil
      have started : second.ahead ≠ [] := by
        intro nothing
        have padded := scans.ahead
        rw [nothing] at padded
        generalize first.ahead = left at padded ended
        cases padded
        exact ended rfl
      have shorter : second.step.ahead.length < length := by
        have positive := image_pos started
        have within := second.image_length_le
        rw [second.step_ahead_length]
        omega
      rw [rest_eq second]
      rcases scans.step sound (portable 0) ended with
        ⟨pad, below, image, fills, ahead, next⟩ | ⟨next, whole, pads, image, shown, fills, atEnd⟩
      · obtain ⟨others, firstRest⟩ := rest_head_newline ahead
        have later := ih _ shorter next sound portable rfl
        rw [firstRest] at later ⊢
        rw [image]
        exact .pad fills later
      · have later := ih _ shorter next (step_sound sound) (fun steps => portable (steps + 1)) rfl
        rw [rest_eq first, image, List.append_assoc]
        refine shown.append ?_
        rcases atEnd with rfl | atEnd
        · exact later
        · obtain ⟨below, ahead⟩ := List.head?_eq_some_iff.mp atEnd
          obtain ⟨others, stepRest⟩ := rest_head_newline ahead
          rw [stepRest] at later ⊢
          exact .add_pads fills later

end Blanking

/-- Whether each here-document of a text is indented or has no line for its terminator, other than the last line. -/
def PortableHeredocs (text : Text) : Prop :=
  ∀ steps, ∀ heredoc ∈ (Blanking.run steps (Blanking.start text)).pending,
    heredoc.indented = true ∨ heredoc.terminator ∉ text.lines.dropLast

theorem PortableHeredocs.run {text : Text} (portable : PortableHeredocs text) (steps : Nat) :
    (Blanking.run steps (Blanking.start text)).Portable := by
  intro atLine heredoc member
  rcases portable steps heredoc member with indented | absent
  · exact Or.inl indented
  · right
    obtain ⟨below, ahead⟩ := List.head?_eq_some_iff.mp atLine
    have kept : _ = text := Blanking.run_whole steps (Blanking.start text)
    rw [ahead] at kept ⊢
    intro inside
    apply absent
    rw [← kept, ← List.singleton_append, ← List.append_assoc]
    exact mem_lines_append (.append_newline _) inside

/-- The copy of a padded text is padded as the text is. -/
theorem blank_padded {left right : Text} (padded : Padded left right) (portable : PortableHeredocs left) :
    Padded (blank left) (blank right) := by
  have scans : Blanking.PaddedScan (.start left) (.start right) :=
    ⟨padded, rfl, Or.inl fun _ _ => rfl⟩
  rw [Blanking.blank_eq_rest, Blanking.blank_eq_rest]
  exact scans.rest (Blanking.start_sound left) portable.run

end AccessorLint.Source
