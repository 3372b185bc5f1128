import Mathlib
import AccessorLint.Proofs.Literals
set_option autoImplicit false

/-!
What the steps of blanking show.

A step passes some symbols and shows an image of them that is as long.  The image depends on what starts there, on the
text ahead and on the pending here-documents, and not on what has been shown before, so the copy of a text is the
images of the steps, one after the other.  `Opens` says once what may start where; later proofs go through its cases.
-/

namespace AccessorLint.Source

open AccessorLint.Symbol (newline)
open AccessorLint.Text (firstLine)

/-! ### Images -/

/-- What is shown for the body of a literal and its closing delimiter. -/
def Delimiters.image (delimiters : Delimiters) (text : Text) : Text :=
  let length := delimiters.bodyLength text
  (text.take length).map hidden ++ (text.drop length).take 1

/-- What is shown for the body of a here-document and the line of its terminator. -/
def Heredoc.image (heredoc : Heredoc) (text : Text) : Text :=
  let length := heredoc.bodyLength text
  let later := text.drop length
  (text.take length).map hidden ++ later.take ((firstLine later).length + 1)

/-- What is shown for the bodies of here-documents, one after the other. -/
def Heredoc.images : List Heredoc → Text → Text
  | [], _ => []
  | heredoc :: others, text =>
      heredoc.image text ++ images others (text.drop (heredoc.image text).length)

/-- What is shown for the symbols that a step passes, given what starts there. -/
def Opening.image (pending : List Heredoc) (text : Text) : Opening → Text
  | .lineEnd => text.take 1 ++ Heredoc.images pending (text.drop 1)
  | .blockComment => (text.take (blockCommentLength text)).map hidden
  | .comment => (text.take (firstLine text).length).map hidden
  | .literal delimiters length => text.take length ++ delimiters.image (text.drop length)
  | .heredoc _ length => text.take length
  | .character => text.take 1 ++ ((text.drop 1).take 1).map hidden
  | .code => text.take 1

/-- The here-documents whose bodies are still to come after a step. -/
def Opening.announces (pending : List Heredoc) : Opening → List Heredoc
  | .lineEnd => []
  | .heredoc announced _ => pending ++ [announced]
  | _ => pending

theorem Heredoc.image_length_le (heredoc : Heredoc) (text : Text) : (heredoc.image text).length ≤ text.length := by
  simp only [image, List.length_append, List.length_map, List.length_take, List.length_drop]
  omega

theorem Heredoc.images_length_le (heredocs : List Heredoc) (text : Text) :
    (images heredocs text).length ≤ text.length := by
  induction heredocs generalizing text with
  | nil => exact Nat.zero_le _
  | cons heredoc others ih =>
      have first := heredoc.image_length_le text
      have later := ih (text.drop (heredoc.image text).length)
      rw [List.length_drop] at later
      rw [images, List.length_append]
      omega

theorem Opening.image_length_le (pending : List Heredoc) (text : Text) (opening : Opening) :
    (opening.image pending text).length ≤ text.length := by
  cases opening with
  | lineEnd =>
      have later := Heredoc.images_length_le pending (text.drop 1)
      simp only [image, List.length_append, List.length_take]
      rw [List.length_drop] at later
      omega
  | literal delimiters length =>
      simp only [image, Delimiters.image, List.length_append, List.length_map, List.length_take, List.length_drop]
      omega
  | character =>
      simp only [image, List.length_append, List.length_map, List.length_take, List.length_drop]
      omega
  | blockComment => simp [image]
  | comment => simp [image]
  | heredoc announced length => simp [image]
  | code => simp [image]

/-! ### What starts where -/

/-- What may start at a symbol, and what has to stand around it. -/
inductive Opens (behind : Text) (symbol : Symbol) (after : Text) : Opening → Prop where
  | lineEnd (same : symbol = newline) : Opens behind symbol after .lineEnd
  | blockComment (starts : Text.startsWith (symbol :: after) "=begin" = true) :
      Opens behind symbol after .blockComment
  | comment (same : symbol = .glyph '#') : Opens behind symbol after .comment
  | quoted (quote : isQuote symbol = true) : Opens behind symbol after (.literal (.quoted symbol) 1)
  | percent (same : symbol = .glyph '%') (delimiters : Delimiters) (length : Nat)
      (found : percentLiteral? behind after = some (delimiters, length)) :
      Opens behind symbol after (.literal delimiters length)
  | regex (same : symbol = .glyph '/') : Opens behind symbol after (.literal .slashes 1)
  | heredoc (same : symbol = .glyph '<') (double : after.head? = some (.glyph '<'))
      (announced : Heredoc) (length : Nat)
      (found : Heredoc.announced? (symbol :: after) = some (announced, length)) :
      Opens behind symbol after (.heredoc announced length)
  | character (same : symbol = .glyph '?') (starts : startsCharacter behind after = true) :
      Opens behind symbol after .character
  | code (inside : symbol ≠ newline) (noComment : symbol ≠ .glyph '#') (noQuote : isQuote symbol = false) :
      Opens behind symbol after .code

theorem Opening.read_opens (behind : Text) (symbol : Symbol) (after : Text) :
    Opens behind symbol after (Opening.read behind (symbol :: after)) := by
  rw [Opening.read]
  by_cases lineEnd : symbol = newline
  · rw [if_pos lineEnd]
    exact .lineEnd lineEnd
  rw [if_neg lineEnd]
  by_cases blockComment : (behind.head?.all (· = newline) && Text.startsWith (symbol :: after) "=begin") = true
  · rw [if_pos blockComment]
    exact .blockComment (Bool.and_eq_true_iff.mp blockComment).2
  rw [if_neg blockComment]
  by_cases comment : symbol = .glyph '#'
  · rw [if_pos comment]
    exact .comment comment
  rw [if_neg comment]
  by_cases quote : isQuote symbol = true
  · rw [if_pos quote]
    exact .quoted quote
  rw [if_neg quote]
  have code : Opens behind symbol after .code := .code lineEnd comment (Bool.eq_false_iff.mpr quote)
  by_cases percent : symbol = .glyph '%'
  · rw [if_pos percent]
    cases found : percentLiteral? behind after with
    | none => exact code
    | some literal => exact .percent percent _ _ found
  rw [if_neg percent]
  by_cases less : symbol = .glyph '<'
  · rw [if_pos less]
    split
    · rename_i double
      rw [Bool.and_eq_true_iff, decide_eq_true_iff] at double
      cases found : Heredoc.announced? (symbol :: after) with
      | none => exact code
      | some announced => exact .heredoc less double.1 _ _ found
    · exact code
  rw [if_neg less]
  split
  · rename_i slash
    rw [Bool.and_eq_true_iff, decide_eq_true_iff] at slash
    exact .regex slash.1
  · split
    · rename_i mark
      rw [Bool.and_eq_true_iff, decide_eq_true_iff] at mark
      exact .character mark.1 mark.2
    · exact code

/-- A symbol that opens nothing wherever it stands. -/
def isPlain (symbol : Symbol) : Bool :=
  symbol != newline && !symbol.isOneOf "=#\"'`%</?"

/-- At a plain symbol nothing starts but code. -/
theorem Opening.read_plain (behind : Text) {symbol : Symbol} (plain : isPlain symbol = true) (after : Text) :
    Opening.read behind (symbol :: after) = .code := by
  simp only [isPlain, Symbol.isOneOf, Bool.and_eq_true, bne_iff_ne, ne_eq, Bool.not_eq_true', List.any_eq_false,
    beq_iff_eq] at plain
  obtain ⟨inside, others⟩ := plain
  have differs : ∀ char ∈ "=#\"'`%</?".toList, symbol ≠ .glyph char := others
  have opened := Opening.read_opens behind symbol after
  generalize Opening.read behind (symbol :: after) = opening at opened
  cases opened with
  | lineEnd same => exact absurd same inside
  | blockComment starts =>
      have same : symbol = .glyph '=' := by
        simp only [Text.startsWith, Text.ofString] at starts
        simp only [String.reduceToList, List.map_cons, List.isPrefixOf, Bool.and_eq_true, beq_iff_eq] at starts
        exact starts.1.symm
      exact absurd same (differs '=' (by decide))
  | comment same => exact absurd same (differs '#' (by decide))
  | quoted quote =>
      rcases (isQuote_iff symbol).mp quote with same | same | same
      · exact absurd same (differs '"' (by decide))
      · exact absurd same (differs '\'' (by decide))
      · exact absurd same (differs '`' (by decide))
  | percent same => exact absurd same (differs '%' (by decide))
  | regex same => exact absurd same (differs '/' (by decide))
  | heredoc same => exact absurd same (differs '<' (by decide))
  | character same => exact absurd same (differs '?' (by decide))
  | code => rfl

theorem isPlain_of_isWord {symbol : Symbol} (word : symbol.isWord = true) : isPlain symbol = true := by
  have differs : ∀ {char : Char}, (Symbol.glyph char).isWord = false → symbol ≠ .glyph char :=
    fun outside => Symbol.ne_of_property word outside
  simp only [isPlain, Symbol.isOneOf, newline, Bool.and_eq_true, bne_iff_ne, Bool.not_eq_true', List.any_eq_false,
    beq_iff_eq, String.reduceToList, List.forall_mem_cons]
  refine ⟨differs (by decide), differs (by decide), differs (by decide), differs (by decide), differs (by decide),
    differs (by decide), differs (by decide), differs (by decide), differs (by decide), differs (by decide), ?_⟩
  simp

theorem isPlain_of_isGap {symbol : Symbol} (gap : isGap symbol = true) : isPlain symbol = true := by
  rcases (isGap_iff symbol).mp gap with rfl | rfl <;> decide

/-! ### Moves -/

namespace Blanking

/-- A move of the scan, by what it shows: the symbols passed go from ahead to behind. -/
structure Moves (before after : Blanking) (image : Text) : Prop where
  behind : after.behind = (before.ahead.take image.length).reverse ++ before.behind
  ahead : after.ahead = before.ahead.drop image.length
  shown : after.shown = image.reverse ++ before.shown

theorem keep_moves (count : Nat) (scan : Blanking) :
    Moves scan (scan.keep count) (scan.ahead.take count) where
  behind := by
    rw [List.length_take, ← List.take_eq_take_min]
    rfl
  ahead := by
    rcases Nat.le_total count scan.ahead.length with within | beyond
    · rw [List.length_take_of_le within]
      rfl
    · rw [List.take_of_length_le beyond, List.drop_length]
      exact List.drop_of_length_le beyond
  shown := rfl

theorem hide_moves (count : Nat) (scan : Blanking) :
    Moves scan (scan.hide count) ((scan.ahead.take count).map hidden) where
  behind := by
    rw [List.length_map]
    exact (keep_moves count scan).behind
  ahead := by
    rw [List.length_map]
    exact (keep_moves count scan).ahead
  shown := rfl

theorem Moves.trans {first second third : Blanking} {left right : Text}
    (before : Moves first second left) (after : Moves second third right) :
    Moves first third (left ++ right) where
  behind := by
    rw [after.behind, before.behind, before.ahead, List.length_append, ← List.append_assoc,
      ← List.reverse_append, List.take_add]
  ahead := by
    rw [after.ahead, before.ahead, List.drop_drop, List.length_append]
  shown := by
    rw [after.shown, before.shown, List.reverse_append, List.append_assoc]

theorem skipLiteral_moves (delimiters : Delimiters) (scan : Blanking) :
    Moves scan (scan.skipLiteral delimiters) (delimiters.image scan.ahead) :=
  (hide_moves _ scan).trans (keep_moves 1 _)

theorem skipBody_moves (heredoc : Heredoc) (scan : Blanking) :
    Moves scan (scan.skipBody heredoc) (heredoc.image scan.ahead) :=
  (hide_moves _ scan).trans (keep_moves _ _)

theorem foldl_skipBody_moves (heredocs : List Heredoc) (scan : Blanking) :
    Moves scan (heredocs.foldl skipBody scan) (Heredoc.images heredocs scan.ahead) := by
  induction heredocs generalizing scan with
  | nil => exact ⟨rfl, rfl, rfl⟩
  | cons heredoc others ih =>
      have first := skipBody_moves heredoc scan
      have later := ih (scan.skipBody heredoc)
      rw [first.ahead] at later
      exact first.trans later

theorem skipBodies_moves (scan : Blanking) :
    Moves scan scan.skipBodies (Heredoc.images scan.pending scan.ahead) := by
  have moved := foldl_skipBody_moves scan.pending scan
  exact ⟨moved.behind, moved.ahead, moved.shown⟩

/-- What starts where the scan is. -/
def opening (scan : Blanking) : Opening :=
  Opening.read scan.behind scan.ahead

theorem opens_of_ahead {scan : Blanking} {symbol : Symbol} {after : Text} (ahead : scan.ahead = symbol :: after) :
    Opens scan.behind symbol after scan.opening := by
  rw [opening, ahead]
  exact Opening.read_opens scan.behind symbol after

/-- What the next step shows. -/
def image (scan : Blanking) : Text :=
  scan.opening.image scan.pending scan.ahead

theorem step_moves (scan : Blanking) : Moves scan scan.step scan.image := by
  simp only [step, image, opening]
  cases Opening.read scan.behind scan.ahead with
  | lineEnd => exact (keep_moves 1 scan).trans (skipBodies_moves _)
  | blockComment => exact hide_moves _ scan
  | comment => exact hide_moves _ scan
  | literal delimiters length => exact (keep_moves length scan).trans (skipLiteral_moves delimiters _)
  | heredoc announced length =>
      have moved := keep_moves length scan
      exact ⟨moved.behind, moved.ahead, moved.shown⟩
  | character => exact (keep_moves 1 scan).trans (hide_moves 1 _)
  | code => exact keep_moves 1 scan

theorem step_pending (scan : Blanking) : scan.step.pending = scan.opening.announces scan.pending := by
  simp only [step, opening]
  cases Opening.read scan.behind scan.ahead <;> rfl

/-- A step in terms of its image alone. -/
theorem step_eq (scan : Blanking) :
    scan.step =
      { behind := (scan.ahead.take scan.image.length).reverse ++ scan.behind
        ahead := scan.ahead.drop scan.image.length
        shown := scan.image.reverse ++ scan.shown
        pending := scan.opening.announces scan.pending } := by
  rw [← scan.step_moves.behind, ← scan.step_moves.ahead, ← scan.step_moves.shown, ← scan.step_pending]

theorem image_length_le (scan : Blanking) : scan.image.length ≤ scan.ahead.length :=
  Opening.image_length_le scan.pending scan.ahead scan.opening

/-! ### Progress -/

theorem blockCommentLength_pos {text : Text} (starts : Text.startsWith text "=begin" = true) :
    0 < blockCommentLength text := by
  obtain ⟨rest, same⟩ := List.isPrefixOf_iff_prefix.mp starts
  have first : firstLine text = Text.ofString "=begin" ++ firstLine rest := by
    rw [← same, firstLine, List.takeWhile_append_of_pos (by decide)]
    rfl
  rcases linesWhile_first (fun line => !endsBlockComment line) text with ⟨-, ends⟩ | covered
  · rw [first] at ends
    simp [endsBlockComment, Text.startsWith, Text.ofString, List.isPrefixOf] at ends
  · exact Nat.lt_of_lt_of_le (Nat.succ_pos _) (Nat.le_trans covered (Nat.le_add_right _ _))

theorem literal_length_pos {behind after : Text} {symbol : Symbol} {delimiters : Delimiters} {length : Nat}
    (opens : Opens behind symbol after (.literal delimiters length)) : 0 < length := by
  cases opens with
  | quoted => exact Nat.one_pos
  | percent same _ _ found =>
      rcases (percentLiteral?_shape found).2.2.2 with ⟨two, -⟩ | ⟨-, -, three, -⟩ <;> omega
  | regex => exact Nat.one_pos

/-- A step passes at least one symbol. -/
theorem image_pos {scan : Blanking} (more : scan.ahead ≠ []) : 0 < scan.image.length := by
  obtain ⟨symbol, after, ahead⟩ := List.exists_cons_of_ne_nil more
  have opens := Opening.read_opens scan.behind symbol after
  simp only [image, opening, ahead]
  generalize Opening.read scan.behind (symbol :: after) = opening at opens
  cases opening with
  | lineEnd => exact Nat.succ_pos _
  | blockComment =>
      cases opens with
      | blockComment starts =>
          have positive := blockCommentLength_pos starts
          rw [Opening.image, List.length_map, List.length_take, List.length_cons]
          omega
  | comment =>
      cases opens with
      | comment same =>
          subst same
          exact Nat.succ_pos _
  | literal delimiters length =>
      have positive := literal_length_pos opens
      rw [Opening.image, List.length_append, List.length_take, List.length_cons]
      omega
  | heredoc announced length =>
      cases opens with
      | heredoc same double _ _ found =>
          obtain ⟨_, _, _, _, size, -⟩ := Heredoc.announced?_shape found
          rw [Opening.image, List.length_take, List.length_cons]
          omega
  | character => exact Nat.succ_pos _
  | code => exact Nat.succ_pos _

theorem step_ahead_length (scan : Blanking) :
    scan.step.ahead.length = scan.ahead.length - scan.image.length := by
  rw [scan.step_moves.ahead, List.length_drop]

theorem step_of_nil {scan : Blanking} (ended : scan.ahead = []) : scan.step = scan := by
  obtain ⟨behind, ahead, shown, pending⟩ := scan
  subst ended
  rfl

theorem run_of_nil (steps : Nat) {scan : Blanking} (ended : scan.ahead = []) : run steps scan = scan := by
  induction steps with
  | zero => rfl
  | succ steps ih => rw [run, step_of_nil ended, ih]

/-- As many steps as there are symbols ahead are enough, and more change nothing. -/
theorem run_enough (scan : Blanking) {left right : Nat} (leftEnough : scan.ahead.length ≤ left)
    (rightEnough : scan.ahead.length ≤ right) : run left scan = run right scan := by
  induction left generalizing scan right with
  | zero =>
      have ended : scan.ahead = [] := List.length_eq_zero_iff.mp (Nat.le_zero.mp leftEnough)
      rw [run_of_nil _ ended, run_of_nil _ ended]
  | succ left ih =>
      by_cases ended : scan.ahead = []
      · rw [run_of_nil _ ended, run_of_nil _ ended]
      · have positive := image_pos ended
        have shorter := scan.step_ahead_length
        have within := scan.image_length_le
        obtain ⟨fewer, rfl⟩ : ∃ fewer, right = fewer + 1 := ⟨right - 1, by omega⟩
        exact ih scan.step (by omega) (by omega)

/-- Steps move symbols from ahead to behind, and keep the text. -/
theorem run_whole (steps : Nat) (scan : Blanking) :
    (run steps scan).behind.reverse ++ (run steps scan).ahead = scan.behind.reverse ++ scan.ahead := by
  induction steps generalizing scan with
  | zero => rfl
  | succ steps ih =>
      rw [run, ih scan.step, scan.step_moves.behind, scan.step_moves.ahead, List.reverse_append, List.reverse_reverse,
        List.append_assoc, List.take_append_drop]

/-! ### The copy of what is ahead -/

/-- What will be shown for the text ahead. -/
def rest (scan : Blanking) : Text :=
  (run scan.ahead.length { scan with shown := [] }).shown.reverse

theorem blank_eq_rest (text : Text) : blank text = (start text).rest := rfl

theorem step_showing (scan : Blanking) (earlier : Text) :
    { scan with shown := earlier }.step = { scan.step with shown := scan.image.reverse ++ earlier } := by
  rw [step_eq, step_eq scan]
  rfl

theorem run_showing (steps : Nat) (scan : Blanking) (earlier : Text) :
    (run steps { scan with shown := earlier }).shown = (run steps { scan with shown := [] }).shown ++ earlier := by
  induction steps generalizing scan earlier with
  | zero => rfl
  | succ steps ih =>
      rw [run, run, step_showing scan earlier, step_showing scan [], ih scan.step, ih scan.step (_ ++ []),
        List.append_nil, List.append_assoc]

/-- The copy of what is ahead starts with the image of the next step. -/
theorem rest_eq (scan : Blanking) : scan.rest = scan.image ++ scan.step.rest := by
  by_cases ended : scan.ahead = []
  · have image : scan.image = [] := by
      have none := scan.image_length_le
      rw [ended] at none
      exact List.length_eq_zero_iff.mp (Nat.le_zero.mp none)
    rw [image, step_of_nil ended, List.nil_append]
  · have positive := image_pos ended
    have shorter := scan.step_ahead_length
    have within := scan.image_length_le
    obtain ⟨steps, size⟩ : ∃ steps, scan.ahead.length = steps + 1 := ⟨scan.ahead.length - 1, by omega⟩
    have enough : run steps { scan.step with shown := [] } =
        run scan.step.ahead.length { scan.step with shown := [] } :=
      run_enough { scan.step with shown := [] } (show scan.step.ahead.length ≤ steps by omega) (Nat.le_refl _)
    rw [rest, size, run, step_showing, run_showing, enough, List.append_nil, List.reverse_append,
      List.reverse_reverse]
    rfl

theorem rest_of_nil {scan : Blanking} (ended : scan.ahead = []) : scan.rest = [] := by
  rw [rest, ended]
  rfl

/-- The copy is aligned with the text. -/
theorem rest_length (scan : Blanking) : scan.rest.length = scan.ahead.length := by
  induction size : scan.ahead.length using Nat.strong_induction_on generalizing scan with
  | _ length ih =>
      by_cases ended : scan.ahead = []
      · rw [rest_of_nil ended, ← size, ended]
      · have positive := image_pos ended
        have within := scan.image_length_le
        have shorter := scan.step_ahead_length
        rw [rest_eq, List.length_append, ih scan.step.ahead.length (by omega) scan.step rfl]
        omega

end Blanking

theorem blank_length (text : Text) : (blank text).length = text.length :=
  Blanking.rest_length (Blanking.start text)

/-! ### What is shown for a symbol -/

/-- Whether a symbol may be shown for another: for itself, or for one that is hidden. -/
def ShownFor (original shown : Symbol) : Prop :=
  shown = original ∨ shown = hidden original

/-- Whether an image shows the first symbols of a text, one by one. -/
def Images (text image : Text) : Prop :=
  List.Forall₂ ShownFor (text.take image.length) image

theorem Images.take (text : Text) (length : Nat) : Images text (text.take length) := by
  rw [Images, List.length_take, ← List.take_eq_take_min, List.forall₂_same]
  exact fun symbol _ => Or.inl rfl

theorem Images.hidden (text : Text) (length : Nat) : Images text ((text.take length).map hidden) := by
  rw [Images, List.length_map, List.length_take, ← List.take_eq_take_min, List.forall₂_map_right_iff,
    List.forall₂_same]
  exact fun symbol _ => Or.inr rfl

theorem Images.append {text left right : Text} (first : Images text left)
    (second : Images (text.drop left.length) right) : Images text (left ++ right) := by
  rw [Images, List.length_append, List.take_add]
  exact List.rel_append first second

private theorem drop_length_take (text : Text) (length : Nat) :
    text.drop (text.take length).length = text.drop length := by
  rw [List.length_take, ← List.drop_eq_drop_min]

theorem Delimiters.image_images (delimiters : Delimiters) (text : Text) : Images text (delimiters.image text) := by
  refine (Images.hidden text _).append ?_
  rw [List.length_map, drop_length_take]
  exact Images.take _ 1

theorem Heredoc.image_images (heredoc : Heredoc) (text : Text) : Images text (heredoc.image text) := by
  refine (Images.hidden text _).append ?_
  rw [List.length_map, drop_length_take]
  exact Images.take _ _

theorem Heredoc.images_images (heredocs : List Heredoc) (text : Text) : Images text (images heredocs text) := by
  induction heredocs generalizing text with
  | nil => exact List.Forall₂.nil
  | cons heredoc others ih => exact (heredoc.image_images text).append (ih _)

theorem Opening.image_images (pending : List Heredoc) (text : Text) (opening : Opening) :
    Images text (opening.image pending text) := by
  cases opening with
  | lineEnd =>
      refine (Images.take text 1).append ?_
      rw [drop_length_take]
      exact Heredoc.images_images pending _
  | blockComment => exact Images.hidden text _
  | comment => exact Images.hidden text _
  | literal delimiters length =>
      refine (Images.take text length).append ?_
      rw [drop_length_take]
      exact delimiters.image_images _
  | heredoc announced length => exact Images.take text length
  | character =>
      refine (Images.take text 1).append ?_
      rw [drop_length_take]
      exact Images.hidden _ 1
  | code => exact Images.take text 1

/-- The copy shows each symbol of the text as it is or hides it. -/
theorem Blanking.rest_images (scan : Blanking) : List.Forall₂ ShownFor scan.ahead scan.rest := by
  induction size : scan.ahead.length using Nat.strong_induction_on generalizing scan with
  | _ length ih =>
      by_cases ended : scan.ahead = []
      · rw [rest_of_nil ended, ended]
        exact List.Forall₂.nil
      · have positive := image_pos ended
        have within := scan.image_length_le
        have shorter := scan.step_ahead_length
        rw [rest_eq, ← List.take_append_drop scan.image.length scan.ahead, ← scan.step_moves.ahead]
        exact List.rel_append (Opening.image_images scan.pending scan.ahead scan.opening)
          (ih scan.step.ahead.length (by omega) scan.step rfl)

theorem blank_images (text : Text) : List.Forall₂ ShownFor text (blank text) :=
  Blanking.rest_images (Blanking.start text)

end AccessorLint.Source
