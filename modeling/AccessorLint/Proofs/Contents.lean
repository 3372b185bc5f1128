import Mathlib
import AccessorLint.Proofs.Alignment
import AccessorLint.Proofs.RenamedText
set_option autoImplicit false

/-!
What stands in a quoted text or in a comment does not matter to the scan.

Two texts that differ only there are compared from the place at which the literal starts.  The step at that place hides
the contents, and afterwards the scan does not look behind the closing quote, or behind the newline that ends the
comment.  So both texts have the same copy, and the methods found in it differ only in their source texts.
-/

namespace AccessorLint.Source

open AccessorLint.Symbol (newline)
open AccessorLint.Text (firstLine)

/-! ### Places of the scan -/

namespace Blanking

/-- Whether the scan of a text comes to an offset in a state. -/
structure Arrives (text : Text) (offset : Nat) (scan : Blanking) : Prop where
  reached : ∃ steps, run steps (start text) = scan
  place : scan.behind.length = offset

/-- What has been shown and what will be shown make the copy, at every place of the scan. -/
theorem run_copy (steps : Nat) (scan : Blanking) :
    (run steps scan).shown.reverse ++ (run steps scan).rest = scan.shown.reverse ++ scan.rest := by
  induction steps generalizing scan with
  | zero => rfl
  | succ steps ih =>
      rw [run, ih scan.step, scan.step_moves.shown, List.reverse_append, List.reverse_reverse, List.append_assoc,
        ← rest_eq scan]

theorem Arrives.split {front back : Text} {scan : Blanking} (arrives : Arrives (front ++ back) front.length scan) :
    scan.behind = front.reverse ∧ scan.ahead = back := by
  obtain ⟨⟨steps, rfl⟩, place⟩ := arrives
  have whole := run_whole steps (start (front ++ back))
  change _ = front ++ back at whole
  obtain ⟨behind, ahead⟩ := List.append_inj whole (by rw [List.length_reverse, place])
  exact ⟨List.reverse_eq_iff.mp behind, ahead⟩

theorem Arrives.copy {text : Text} {offset : Nat} {scan : Blanking} (arrives : Arrives text offset scan) :
    blank text = scan.shown.reverse ++ scan.rest := by
  obtain ⟨⟨steps, rfl⟩, -⟩ := arrives
  rw [run_copy, blank_eq_rest]
  rfl

end Blanking

/-! ### Lines that correspond -/

/-- Whether two texts are equally long and have their newlines at the same places. -/
def SameLines (left right : Text) : Prop :=
  List.Forall₂ (fun first second => first = newline ↔ second = newline) left right

theorem SameLines.hidden {left right : Text} (same : SameLines left right) : left.map hidden = right.map hidden := by
  induction same with
  | nil => rfl
  | @cons first second left right here _ ih =>
      rw [List.map_cons, List.map_cons, ih]
      unfold Source.hidden
      simp only [here]

theorem SameLines.of_absent {left right : Text} (size : left.length = right.length) (noLeft : newline ∉ left)
    (noRight : newline ∉ right) : SameLines left right := by
  refine List.forall₂_iff_get.mpr ⟨size, fun index inLeft inRight => ?_⟩
  constructor
  · intro isNewline
    exact absurd (isNewline ▸ List.get_mem left ⟨index, inLeft⟩) noLeft
  · intro isNewline
    exact absurd (isNewline ▸ List.get_mem right ⟨index, inRight⟩) noRight

theorem SameLines.lineStarts {left right : Text} (same : SameLines left right) : lineStarts left = lineStarts right := by
  suffices later : ∀ base, lineStarts.go base left = lineStarts.go base right by
    rw [Source.lineStarts, Source.lineStarts, later]
  induction same with
  | nil => exact fun _ => rfl
  | @cons first second left right here _ ih =>
      intro base
      unfold lineStarts.go
      simp only [here, ih]

/-- A copy has its lines where the text has them. -/
theorem sameLines_blank (text : Text) : SameLines text (blank text) :=
  (blank_images text).imp fun _ _ shows => shows.newline_iff.symm

/-! ### Quoted texts -/

/-- The bodies of quoted texts: symbols that stand for themselves, and symbols after a backslash.  Only between single
quotes a `#` may be followed by a brace, both standing for themselves. -/
inductive QuotedBody (quote : Symbol) : Text → Prop where
  | nil : QuotedBody quote []
  | plain {symbol : Symbol} {rest : Text} (noQuote : symbol ≠ quote) (noEscape : symbol ≠ .glyph '\\')
      (noCode : quote = .glyph '\'' ∨ symbol ≠ .glyph '#' ∨ rest.head? ≠ some (.glyph '\x7b'))
      (later : QuotedBody quote rest) : QuotedBody quote (symbol :: rest)
  | escaped (symbol : Symbol) {rest : Text} (later : QuotedBody quote rest) :
      QuotedBody quote (.glyph '\\' :: symbol :: rest)

theorem QuotedBody.bodyLength {quote : Symbol} (isQuote : isQuote quote = true) {body : Text}
    (encloses : QuotedBody quote body) (after : Text) :
    (Delimiters.quoted quote).bodyLength (body ++ quote :: after) = body.length := by
  have noBackslash : quote ≠ .glyph '\\' := Symbol.ne_of_property isQuote (by decide)
  have noBrace : quote ≠ .glyph '\x7b' := Symbol.ne_of_property isQuote (by decide)
  have noHash : quote ≠ .glyph '#' := Symbol.ne_of_property isQuote (by decide)
  unfold Delimiters.bodyLength
  induction encloses with
  | nil =>
      rw [List.nil_append, Frame.span_eq_move]
      simp [Frame.move, Delimiters.quoted, Frame.close, noBackslash, noHash]
  | @plain symbol rest noQuote noEscape noCode later ih =>
      have goesOn : ¬((Delimiters.quoted quote).interpolates && symbol = .glyph '#' &&
          (rest ++ quote :: after).head? = some (.glyph '\x7b')) = true := by
        simp only [Delimiters.quoted, Bool.and_eq_true, bne_iff_ne, decide_eq_true_eq]
        rintro ⟨⟨double, isHash⟩, brace⟩
        rcases noCode with single | noHash | noBrace'
        · exact double single
        · exact noHash isHash
        · cases rest with
          | nil => exact noBrace (Option.some.inj brace)
          | cons next others => exact noBrace' brace
      rw [List.cons_append, Frame.span_eq_move, Frame.move, if_neg noEscape, if_neg goesOn, if_neg (by simp
        [Delimiters.quoted]), if_neg (show symbol ≠ (Delimiters.quoted quote).closing from noQuote)]
      change 1 + Frame.span _ _ (rest ++ quote :: after) = _
      rw [ih, List.length_cons, Nat.add_comm]
  | @escaped symbol rest later ih =>
      rw [List.cons_append, List.cons_append, Frame.span_eq_move, Frame.move, if_pos rfl,
        Nat.min_eq_left (by simp)]
      change 2 + Frame.span _ _ (rest ++ quote :: after) = _
      rw [ih, List.length_cons, List.length_cons, Nat.add_comm]

namespace Blanking

theorem opening_quote {scan : Blanking} {quote : Symbol} (isQuote : isQuote quote = true) {after : Text}
    (ahead : scan.ahead = quote :: after) : scan.opening = .literal (.quoted quote) 1 := by
  rw [opening, ahead, Opening.read]
  rcases (isQuote_iff quote).mp isQuote with rfl | rfl | rfl <;>
    simp [newline, Text.startsWith, Text.ofString, Source.isQuote, Symbol.isOneOf]

/-- At a quote the scan passes the whole quoted text. -/
theorem step_quoted {scan : Blanking} {quote : Symbol} (isQuote : isQuote quote = true) {body after : Text}
    (encloses : QuotedBody quote body) (ahead : scan.ahead = quote :: (body ++ quote :: after)) :
    scan.image = quote :: (body.map hidden ++ [quote]) ∧
      scan.step.behind = quote :: (body.reverse ++ quote :: scan.behind) ∧ scan.step.ahead = after ∧
      scan.step.pending = scan.pending := by
  have opens := opening_quote isQuote ahead
  have image : scan.image = quote :: (body.map hidden ++ [quote]) := by
    rw [Blanking.image, opens, ahead, Opening.image, List.take_succ_cons, List.take_zero, List.drop_succ_cons,
      List.drop_zero, Delimiters.image, encloses.bodyLength isQuote, List.take_left, List.drop_left]
    rfl
  have size : scan.image.length = (quote :: (body ++ [quote])).length := by
    rw [image]
    simp
  have whole : scan.ahead = (quote :: (body ++ [quote])) ++ after := by
    rw [ahead]
    simp
  refine ⟨image, ?_, ?_, ?_⟩
  · rw [scan.step_moves.behind, size, whole, List.take_left]
    simp
  · rw [scan.step_moves.ahead, size, whole, List.drop_left]
  · rw [step_pending, opens]
    rfl

/-- The contents of a quoted text do not matter to the copy. -/
theorem rest_quoted {first second : Blanking} {quote : Symbol} (isQuote : isQuote quote = true)
    {left right after : Text} (leftBody : QuotedBody quote left) (rightBody : QuotedBody quote right)
    (same : SameLines left right) (firstAhead : first.ahead = quote :: (left ++ quote :: after))
    (secondAhead : second.ahead = quote :: (right ++ quote :: after)) (pending : first.pending = second.pending) :
    first.rest = second.rest := by
  obtain ⟨firstImage, firstBehind, firstAfter, firstPending⟩ := step_quoted isQuote leftBody firstAhead
  obtain ⟨secondImage, secondBehind, secondAfter, secondPending⟩ := step_quoted isQuote rightBody secondAhead
  have fenced : Fenced [quote] := by
    refine ⟨quote, List.mem_singleton_self quote, ?_⟩
    rcases (isQuote_iff quote).mp isQuote with rfl | rfl | rfl <;> decide
  rw [rest_eq first, rest_eq second, firstImage, secondImage, same.hidden]
  congr 1
  refine rest_fenced fenced firstBehind secondBehind ?_ ?_
  · rw [firstAfter, secondAfter]
  · rw [firstPending, secondPending, pending]

/-! ### Comments -/

/-- At the end of a line nothing behind it matters. -/
theorem rest_at_newline {first second : Blanking} {below : Text} (firstAhead : first.ahead = newline :: below)
    (secondAhead : second.ahead = newline :: below) (pending : first.pending = second.pending) :
    first.rest = second.rest := by
  have opens : ∀ {scan : Blanking}, scan.ahead = newline :: below → scan.opening = .lineEnd := by
    intro scan ahead
    rw [opening, ahead, Opening.read, if_pos rfl]
  have image : first.image = second.image := by
    rw [Blanking.image, Blanking.image, opens firstAhead, opens secondAhead, firstAhead, secondAhead, pending]
  have fenced : Fenced ((newline :: below).take first.image.length).reverse := by
    have passes : 0 < first.image.length := image_pos (by rw [firstAhead]; exact List.cons_ne_nil _ _)
    obtain ⟨more, size⟩ := Nat.exists_eq_succ_of_ne_zero (Nat.ne_of_gt passes)
    refine ⟨newline, ?_, by decide⟩
    rw [size, List.take_succ_cons, List.mem_reverse]
    exact List.mem_cons_self
  rw [rest_eq first, rest_eq second, image]
  congr 1
  have firstBehind := first.step_moves.behind
  have secondBehind := second.step_moves.behind
  rw [firstAhead] at firstBehind
  rw [secondAhead, ← image] at secondBehind
  refine rest_fenced fenced firstBehind secondBehind ?_ ?_
  · rw [first.step_moves.ahead, second.step_moves.ahead, firstAhead, secondAhead, image]
  · rw [step_pending, step_pending, opens firstAhead, opens secondAhead, pending]

/-- At a `#` the scan passes the rest of the line. -/
theorem step_comment {scan : Blanking} {body after : Text} (absent : newline ∉ body)
    (ends : ∀ next ∈ after.head?, next = newline) (ahead : scan.ahead = .glyph '#' :: (body ++ after)) :
    scan.image = (.glyph '#' :: body).map hidden ∧ scan.step.ahead = after ∧ scan.step.pending = scan.pending := by
  have opens : scan.opening = .comment := by
    rw [opening, ahead, Opening.read]
    simp [newline, Text.startsWith, Text.ofString]
  have line : firstLine (.glyph '#' :: body ++ after) = .glyph '#' :: body := by
    have outside : newline ∉ .glyph '#' :: body := by
      rw [List.mem_cons, not_or]
      exact ⟨by decide, absent⟩
    cases after with
    | nil => rw [List.append_nil, Text.firstLine_of_not_mem outside]
    | cons next below =>
        rw [ends next rfl]
        exact Text.firstLine_append_newline outside below
  have image : scan.image = (.glyph '#' :: body).map hidden := by
    rw [Blanking.image, opens, ahead, Opening.image, ← List.cons_append, line, List.take_left]
  have size : scan.image.length = (.glyph '#' :: body).length := by rw [image, List.length_map]
  refine ⟨image, ?_, ?_⟩
  · rw [scan.step_moves.ahead, size, ahead, ← List.cons_append, List.drop_left]
  · rw [step_pending, opens]
    rfl

/-- The contents of a comment do not matter to the copy. -/
theorem rest_comment {first second : Blanking} {left right after : Text} (noLeft : newline ∉ left)
    (noRight : newline ∉ right) (size : left.length = right.length) (ends : ∀ next ∈ after.head?, next = newline)
    (firstAhead : first.ahead = .glyph '#' :: (left ++ after))
    (secondAhead : second.ahead = .glyph '#' :: (right ++ after)) (pending : first.pending = second.pending) :
    first.rest = second.rest := by
  obtain ⟨firstImage, firstAfter, firstPending⟩ := step_comment noLeft ends firstAhead
  obtain ⟨secondImage, secondAfter, secondPending⟩ := step_comment noRight ends secondAhead
  have same := SameLines.of_absent size noLeft noRight
  rw [rest_eq first, rest_eq second, firstImage, secondImage, List.map_cons, List.map_cons, same.hidden]
  congr 1
  cases after with
  | nil => rw [rest_of_nil firstAfter, rest_of_nil secondAfter]
  | cons next below =>
      rw [ends next rfl] at firstAfter secondAfter
      exact rest_at_newline firstAfter secondAfter (by rw [firstPending, secondPending, pending])

end Blanking

/-! ### Methods -/

/-- Whether two texts have the same copy and the same methods, but for their source texts. -/
structure ScanAlike (path left right : Text) : Prop where
  copy : blank left = blank right
  methods : (Declaration.scan left path).map (fun method => { method with sourceText := [] }) =
    (Declaration.scan right path).map fun method => { method with sourceText := [] }

theorem ScanAlike.of_copy {left right : Text} (copy : blank left = blank right) (path : Text) :
    ScanAlike path left right := by
  have starts : lineStarts left = lineStarts right := by
    rw [(sameLines_blank left).lineStarts, copy, ← (sameLines_blank right).lineStarts]
  refine ⟨copy, ?_⟩
  rw [Declaration.scan, Declaration.scan, copy, starts, List.map_map, List.map_map]
  rfl

theorem ScanAlike.of_rest {left right path : Text} {first second : Blanking} {offset : Nat}
    (inLeft : first.Arrives left offset) (inRight : second.Arrives right offset) (shown : first.shown = second.shown)
    (rest : first.rest = second.rest) : ScanAlike path left right :=
  .of_copy (by rw [inLeft.copy, inRight.copy, shown, rest]) path

end AccessorLint.Source

namespace AccessorLint

open AccessorLint.Symbol (newline)
open Source (Blanking QuotedBody SameLines ScanAlike blank isQuote)

/-- The contents of quoted texts and comments do not influence what is found in a file.  Where the scan of two texts
comes to a quoted text, or to a comment, with the same copy and the same here-documents pending, and the texts differ
only in what the quotes enclose or the comment says, line for line as long, they have the same copy and the same
methods, but for the source texts of these. -/
theorem literal_contents_not_scanned (before after path : Text) :
    (∀ (quote : Symbol) (left right : Text) (first second : Blanking), isQuote quote = true →
      QuotedBody quote left → QuotedBody quote right → SameLines left right →
      first.Arrives (before ++ quote :: (left ++ quote :: after)) before.length →
      second.Arrives (before ++ quote :: (right ++ quote :: after)) before.length →
      first.pending = second.pending → first.shown = second.shown →
      ScanAlike path (before ++ quote :: (left ++ quote :: after)) (before ++ quote :: (right ++ quote :: after))) ∧
    ∀ (left right : Text) (first second : Blanking), newline ∉ left → newline ∉ right → left.length = right.length →
      (∀ next ∈ after.head?, next = newline) →
      first.Arrives (before ++ .glyph '#' :: (left ++ after)) before.length →
      second.Arrives (before ++ .glyph '#' :: (right ++ after)) before.length →
      first.pending = second.pending → first.shown = second.shown →
      ScanAlike path (before ++ .glyph '#' :: (left ++ after)) (before ++ .glyph '#' :: (right ++ after)) := by
  constructor
  · intro quote left right first second isQuote leftBody rightBody same inLeft inRight pending shown
    have rest := Blanking.rest_quoted isQuote leftBody rightBody same inLeft.split.2 inRight.split.2 pending
    exact .of_rest inLeft inRight shown rest
  · intro left right first second noLeft noRight size ends inLeft inRight pending shown
    have rest := Blanking.rest_comment noLeft noRight size ends inLeft.split.2 inRight.split.2 pending
    exact .of_rest inLeft inRight shown rest

theorem keywords_in_literals_not_scanned :
    let before : Text := "a(<<T, "
    let left : Text := "end\\\""
    let right : Text := "#def "
    let after : Text := ")\nend\nT\ndef get_a\nend\n"
    let below : Text := "\ndef get_b\nend\n"
    (∃ scan, Blanking.Arrives (before ++ .glyph '"' :: (left ++ .glyph '"' :: after)) 7 scan ∧ scan.pending ≠ []) ∧
      ScanAlike "a.rb" (before ++ .glyph '"' :: (left ++ .glyph '"' :: after))
        (before ++ .glyph '"' :: (right ++ .glyph '"' :: after)) ∧
      ScanAlike "a.rb" (before ++ .glyph '#' :: (left ++ below)) (before ++ .glyph '#' :: (right ++ below)) := by
  intro before left right after below
  have quoted : QuotedBody (.glyph '"') left :=
    .plain (by decide) (by decide) (by decide) <| .plain (by decide) (by decide) (by decide) <|
      .plain (by decide) (by decide) (by decide) <| .escaped _ .nil
  have other : QuotedBody (.glyph '"') right :=
    .plain (by decide) (by decide) (by decide) <| .plain (by decide) (by decide) (by decide) <|
      .plain (by decide) (by decide) (by decide) <| .plain (by decide) (by decide) (by decide) <|
        .plain (by decide) (by decide) (by decide) .nil
  let scan (text : Text) := Blanking.run 5 (Blanking.start text)
  have comes : ∀ text ∈ [before ++ .glyph '"' :: (left ++ .glyph '"' :: after),
      before ++ .glyph '"' :: (right ++ .glyph '"' :: after), before ++ .glyph '#' :: (left ++ below),
      before ++ .glyph '#' :: (right ++ below)], Blanking.Arrives text 7 (scan text) := by
    intro text member
    refine ⟨⟨5, rfl⟩, ?_⟩
    revert text
    decide +kernel
  have noLeft : .newline ∉ left := by decide
  have noRight : .newline ∉ right := by decide
  refine ⟨⟨_, comes _ (by simp), by decide +kernel⟩, ?_, ?_⟩
  · exact (literal_contents_not_scanned before after "a.rb").1 _ _ _ (scan _) (scan _) (by decide) quoted other
      (.of_absent rfl noLeft noRight) (comes _ (by simp)) (comes _ (by simp)) (by decide +kernel) (by decide +kernel)
  · exact (literal_contents_not_scanned before below "a.rb").2 _ _ (scan _) (scan _) noLeft noRight rfl (by decide)
      (comes _ (by simp)) (comes _ (by simp)) (by decide +kernel) (by decide +kernel)

end AccessorLint
