import Mathlib
import AccessorLint.Proofs.Definitions
import AccessorLint.Proofs.Locality
set_option autoImplicit false

/-!
A method with another name.

A slot is a text without the name of one of its methods.  The head of the method stands on a line of its own, and a
parenthesis follows the name.  If the head is code for one name, it is code for all, and the name is the only place
where the copies differ: above, the scan does not see the name, on the line it passes code, and to the right it does
not see behind the parenthesis.
-/

namespace AccessorLint.Source

open AccessorLint.Symbol (newline)
open AccessorLint.Text (WholeLines firstLine)

/-- A text with a slot for the name of a method. -/
structure Slot where
  /-- The lines above the head. -/
  above : Text
  indent : Text
  receiver : Option Text
  /-- What stands between `def` and the name. -/
  lead : Text
  /-- What stands between the name and the parenthesis after it. -/
  gaps : Text
  below : Text
  whole : WholeLines above
  indentGaps : ∀ symbol ∈ indent, isGap symbol = true
  isLead : Lead receiver lead
  gapsGaps : ∀ symbol ∈ gaps, isGap symbol = true

namespace Slot

/-- What stands before the `def`. -/
def left (slot : Slot) : Text :=
  slot.above ++ slot.indent

/-- What stands before the name. -/
def front (slot : Slot) : Text :=
  slot.left ++ ("def" ++ slot.lead)

/-- What stands after the name. -/
def back (slot : Slot) : Text :=
  slot.gaps ++ .glyph '(' :: slot.below

/-- The text in which the slot is filled with a name. -/
def fill (slot : Slot) (name : Text) : Text :=
  slot.front ++ (name ++ slot.back)

theorem fill_eq (slot : Slot) (name : Text) :
    slot.fill name =
      slot.above ++ (slot.indent ++ ("def" ++ (slot.lead ++ (name ++ (slot.gaps ++ .glyph '(' :: slot.below))))) := by
  simp [fill, front, left, back]

end Slot

/-! ### Names in a slot -/

private theorem back_head {slot : Slot} {next : Symbol} (member : next ∈ slot.back.head?) :
    isGap next = true ∨ next = .glyph '(' := by
  unfold Slot.back at member
  cases gapsEq : slot.gaps with
  | nil =>
      rw [gapsEq] at member
      cases member
      exact Or.inr rfl
  | cons gap others =>
      rw [gapsEq] at member
      cases member
      exact Or.inl (slot.gapsGaps next (by simp [gapsEq]))

theorem Slot.back_stops (slot : Slot) : ∀ next ∈ slot.back.head?, isPathPart next = false := by
  intro next member
  rcases back_head member with gap | rfl
  · exact isPathPart_of_isGap gap
  · decide

/-- A name in a slot is read as a whole. -/
theorem Ordinary.named {name : Text} (ordinary : Ordinary name) (slot : Slot) :
    nameLength (name ++ slot.back) = name.length := by
  have noMark : markLength slot.back = 0 := by
    cases backEq : slot.back with
    | nil => rfl
    | cons next others =>
        rcases back_head (show next ∈ slot.back.head? by rw [backEq]; rfl) with gap | rfl
        · rcases (isGap_iff next).mp gap with rfl | rfl <;> rfl
        · rfl
  have stops : ∀ next ∈ slot.back.head?, next.isWord = false := fun next member =>
    (Bool.or_eq_false_iff.mp (slot.back_stops next member)).1
  cases ordinary with
  | word identifier free => rw [nameLength_identifier identifier stops, noMark, Nat.add_zero]
  | @assignment word identifier =>
      have markStops : ∀ next ∈ (Text.ofString "=" ++ slot.back).head?, next.isWord = false := by
        intro next member
        cases member
        decide
      have mark : markLength (Text.ofString "=" ++ slot.back) = 1 := by
        have apart : slot.back.head?.any (fun symbol => symbol.isOneOf "=~>") = false := by
          cases backEq : slot.back with
          | nil => rfl
          | cons next others =>
              rcases back_head (show next ∈ slot.back.head? by rw [backEq]; rfl) with gap | rfl
              · rcases (isGap_iff next).mp gap with rfl | rfl <;> rfl
              · rfl
        change (if (Symbol.glyph '=').isOneOf "?!" then 1
          else if Symbol.glyph '=' = .glyph '=' && !(slot.back.head?.any fun symbol => symbol.isOneOf "=~>") then 1
          else 0) = 1
        rw [apart]
        rfl
      rw [List.append_assoc, nameLength_identifier identifier markStops, mark, List.length_append]
      rfl

/-- A name in a slot does not look like a receiver. -/
theorem Ordinary.unreceived {name : Text} (ordinary : Ordinary name) (slot : Slot) :
    Header.Unreceived (name ++ slot.back) := by
  intro length skipped found
  obtain ⟨path, before, after, rest, same, isReceiver, beforeGaps, -⟩ := receiver?_sound found
  have pathRun : ∀ {word tail : Text}, IsIdentifier word → (∀ next ∈ tail.head?, isPathPart next = false) →
      word ++ tail = path ++ (before ++ .glyph '.' :: (after ++ rest)) →
      tail = before ++ .glyph '.' :: (after ++ rest) := by
    intro word tail identifier stops same
    have sameRun := congrArg (List.takeWhile isPathPart) same
    rw [takeWhile_run (fun symbol member => isPathPart_of_isWord (identifier.words symbol member)) stops,
      takeWhile_run isReceiver.parts (fun next member => isPathPart_of_dotted beforeGaps member)] at sameRun
    subst sameRun
    exact List.append_cancel_left same
  cases ordinary with
  | word identifier free =>
      have tail := pathRun identifier slot.back_stops same
      unfold Slot.back at tail
      have sameRun := congrArg (List.takeWhile isGap) tail
      rw [takeWhile_run slot.gapsGaps (by intro next member; cases member; decide),
        takeWhile_run beforeGaps (by intro next member; cases member; decide)] at sameRun
      rw [sameRun] at tail
      cases (List.cons.inj (List.append_cancel_left tail)).1
  | assignment identifier =>
      rw [List.append_assoc] at same
      have tail := pathRun identifier (by intro next member; cases member; decide) same
      cases before with
      | nil => cases (List.cons.inj tail).1
      | cons gap others =>
          have isMark := (List.cons.inj tail).1
          have isGap := beforeGaps gap (List.mem_cons_self ..)
          rw [← isMark] at isGap
          cases isGap

namespace Blanking

/-! ### Above the head -/

theorem shown_whole {above shown : Text} (whole : WholeLines above) (shows : List.Forall₂ ShownFor above shown) :
    WholeLines shown := by
  intro last member
  obtain ⟨others, rfl⟩ := List.getLast?_eq_some_iff.mp member
  have lastShows := List.forall₂_drop_append _ _ _ shows
  obtain ⟨original, rest, shownFor, nothing, aboveEq⟩ := List.forall₂_cons_right_iff.mp lastShows
  obtain rfl := List.forall₂_nil_right_iff.mp nothing
  have isNewline := whole.drop others.length original (by rw [aboveEq]; rfl)
  rcases shownFor with same | isHidden
  · rw [same, isNewline]
  · rw [isHidden, isNewline]
    rfl

/-- No step goes beyond a newline and ends in gaps and a word after it, or reaches a gap after that. -/
theorem image_within_lines {scan : Blanking} (sound : scan.Sound) {shown front right : Text} {symbol gap : Symbol}
    (ends : WholeLines shown) (nonempty : shown ≠ [])
    (shows : scan.rest = shown ++ (front ++ symbol :: gap :: right))
    (frontSymbols : ∀ other ∈ front, isGap other = true ∨ other.isAlphanumeric = true)
    (word : symbol.isAlphanumeric = true) (isGap : isGap gap = true)
    (goesOn : ∃ other ∈ firstLine right, other.isBlank = false) : scan.image.length ≤ shown.length := by
  by_contra beyond
  have regrouped : front ++ symbol :: gap :: right = (front ++ [symbol]) ++ gap :: right := by simp
  have symbols : ∀ other ∈ front ++ [symbol], Source.isGap other = true ∨ other.isAlphanumeric = true := by
    intro other member
    rcases List.mem_append.mp member with inFront | isSymbol
    · exact frontSymbols other inFront
    · exact Or.inr (List.mem_singleton.mp isSymbol ▸ word)
  have noNewline : ∀ other, Source.isGap other = true ∨ other.isAlphanumeric = true → other ≠ newline := by
    rintro other (gap | alphanumeric)
    · exact ne_newline_of_isGap gap
    · exact ne_newline_of_isWord (Symbol.isWord_of_isAlphanumeric alphanumeric)
  obtain ⟨shown, rfl⟩ : ∃ others, shown = others ++ [newline] := by
    obtain ⟨others, last, rfl⟩ := (List.eq_nil_or_concat' shown).resolve_left nonempty
    exact ⟨others, by rw [ends last (by simp)]⟩
  rw [rest_eq, regrouped] at shows
  obtain ⟨back, imageEq, restEq⟩ : ∃ back, scan.image = shown ++ newline :: back ∧
      (front ++ [symbol]) ++ gap :: right = back ++ scan.step.rest := by
    rcases List.append_eq_append_iff.mp shows with ⟨more, shownEq, -⟩ | ⟨back, imageEq, restEq⟩
    · rw [shownEq, List.length_append] at beyond
      omega
    · exact ⟨back, by simpa using imageEq, restEq⟩
  have more : back ≠ [] := by
    rintro rfl
    rw [imageEq] at beyond
    simp at beyond
  have leaves := image_after_newline imageEq more
  have lastApart : ∀ last, Source.isGap last = true ∨ last.isAlphanumeric = true →
      ¬(last = newline ∨ last.isAlphanumeric = false ∧ last.isBlank = false) := by
    rintro last symbols (isNewline | ⟨noWord, noBlank⟩)
    · exact noNewline last symbols isNewline
    · rcases symbols with gap | alphanumeric
      · rw [isBlank_of_isGap gap] at noBlank
        cases noBlank
      · rw [alphanumeric] at noWord
        cases noWord
  -- the step ends in the gaps and the word, or after the gap that follows
  rcases List.append_eq_append_iff.mp restEq with ⟨later, backEq, gapEq⟩ | ⟨later, frontEq, laterEq⟩
  · cases later with
    | nil =>
        rw [List.append_nil] at backEq
        rcases leaves with ⟨last, isLast, ends⟩ | next
        · rw [backEq, List.getLast?_concat] at isLast
          cases isLast
          exact lastApart symbol (Or.inr word) ends
        · exact ne_newline_of_isGap isGap (next gap (by rw [show scan.step.rest = gap :: right from gapEq.symm]; rfl))
    | cons first others =>
        rw [List.cons_append, List.cons.injEq] at gapEq
        obtain ⟨rfl, rightEq⟩ := gapEq
        have image : scan.image = (shown ++ newline :: front) ++ symbol :: gap :: others := by
          rw [imageEq, backEq]
          simp
        have visible : symbol.isBlank = false := Symbol.isBlank_of_isWord (Symbol.isWord_of_isAlphanumeric word)
        obtain ⟨other, member, otherVisible⟩ := goesOn
        rw [rightEq] at member
        rw [image_word_gap sound word visible isGap image other member] at otherVisible
        cases otherVisible
  · rcases leaves with ⟨last, isLast, ends⟩ | next
    · refine lastApart last (symbols last ?_) ends
      rw [frontEq]
      exact List.mem_append_left _ (List.mem_of_getLast? isLast)
    · cases later with
      | nil => exact ne_newline_of_isGap isGap (next gap (by rw [laterEq]; rfl))
      | cons first others =>
          refine noNewline first (symbols first ?_) (next first (by rw [laterEq]; rfl))
          simp [frontEq]

/-- A step whose opening and image are settled above is the same whatever stands below. -/
theorem step_settled {scan : Blanking} {above image : Text} {opening : Opening}
    (same : ∀ below, Opening.read scan.behind (above ++ below) = opening)
    (imageSame : ∀ below, opening.image scan.pending (above ++ below) = image) (within : image.length ≤ above.length)
    (below : Text) :
    { scan with ahead := above ++ below }.image = image ∧
      { scan with ahead := above ++ below }.step =
        { behind := (above.take image.length).reverse ++ scan.behind
          ahead := above.drop image.length ++ below
          shown := image.reverse ++ scan.shown
          pending := opening.announces scan.pending } := by
  have openingEq : { scan with ahead := above ++ below }.opening = opening := same below
  have imageEq : { scan with ahead := above ++ below }.image = image := by
    rw [Blanking.image, openingEq]
    exact imageSame below
  refine ⟨imageEq, ?_⟩
  rw [step_eq, imageEq, openingEq, List.take_append_of_le_length within, List.drop_append_of_le_length within]

/-- If the copy shows a word and more at the start of a line, the scan reaches the start of that line between two
steps, and what it has shown by then does not depend on the line or on what stands below. -/
theorem rest_at_line {scan : Blanking} (sound : scan.Sound) {above line shown front right : Text} {symbol gap : Symbol}
    (whole : WholeLines above) (ahead : scan.ahead = above ++ line)
    (starts : ∃ first ∈ line.head?, first ≠ newline)
    (shows : scan.rest = shown ++ (front ++ symbol :: gap :: right)) (size : shown.length = above.length)
    (frontSymbols : ∀ other ∈ front, isGap other = true ∨ other.isAlphanumeric = true)
    (word : symbol.isAlphanumeric = true) (isGap : isGap gap = true)
    (goesOn : ∃ other ∈ firstLine right, other.isBlank = false) :
    ∃ pending, ∀ other, { scan with ahead := above ++ other }.rest =
      shown ++ rest ⟨above.reverse ++ scan.behind, other, [], pending⟩ := by
  induction length : above.length using Nat.strong_induction_on generalizing scan above shown with
  | _ length ih =>
      by_cases ended : above = []
      · subst ended
        have none : shown = [] := List.length_eq_zero_iff.mp size
        subst none
        exact ⟨scan.pending, fun other => rfl⟩
      obtain ⟨opening, same, settled⟩ := Opening.image_settled scan.behind scan.pending whole ended
      have openingEq : scan.opening = opening := by
        rw [Blanking.opening, ahead]
        exact same line
      have imageEq : scan.image = opening.image scan.pending (above ++ line) := by
        rw [Blanking.image, openingEq, ahead]
      have visible : symbol.isBlank = false := Symbol.isBlank_of_isWord (Symbol.isWord_of_isAlphanumeric word)
      rw [rest_eq] at shows
      rcases settled with ⟨image, within, imageSame⟩ | beyond
      · have isImage : scan.image = image := imageEq.trans (imageSame line)
        have more : scan.ahead ≠ [] := by
          rw [ahead]
          exact fun nothing => ended (List.append_eq_nil_iff.mp nothing).1
        have positive := image_pos more
        rw [isImage] at positive shows
        obtain ⟨later, rfl⟩ : ∃ later, shown = image ++ later := by
          rcases List.append_eq_append_iff.mp shows with ⟨later, shownEq, -⟩ | ⟨later, imageEq, -⟩
          · exact ⟨later, shownEq⟩
          · have total := congrArg List.length imageEq
            rw [List.length_append] at total
            refine ⟨[], ?_⟩
            rw [imageEq, List.length_eq_zero_iff.mp (show later.length = 0 by omega), List.append_nil, List.append_nil]
        rw [List.append_assoc] at shows
        rw [List.length_append] at size
        have settled := step_settled same imageSame within
        have scanEq : { scan with ahead := above ++ line } = scan := by
          rw [← ahead]
        have step := (settled line).2
        rw [scanEq] at step
        have behindEq : scan.step.behind = (above.take image.length).reverse ++ scan.behind := by rw [step]
        obtain ⟨pending, later⟩ := ih (above.drop image.length).length (by rw [List.length_drop]; omega)
          (step_sound sound) (whole.drop image.length) (by rw [step]) (List.append_cancel_left shows)
          (by rw [List.length_drop]; omega) rfl
        refine ⟨pending, fun other => ?_⟩
        have behinds : (above.drop image.length).reverse ++ ((above.take image.length).reverse ++ scan.behind) =
            above.reverse ++ scan.behind := by
          rw [← List.append_assoc, ← List.reverse_append, List.take_append_drop]
        have sameStep : { scan with ahead := above ++ other }.step =
            { scan.step with ahead := above.drop image.length ++ other } := by
          rw [(settled other).2, step]
        rw [rest_eq, (settled other).1, sameStep, later, behindEq, behinds, List.append_assoc]
      · have prefixShows : List.Forall₂ ShownFor above shown := by
          have all := scan.rest_images
          rw [rest_eq, shows] at all
          have front := List.forall₂_take_append _ _ _ all
          rwa [ahead, size, List.take_left] at front
        have within := image_within_lines sound (shown_whole whole prefixShows)
          (fun nothing => ended (List.length_eq_zero_iff.mp (by rw [← size, nothing]; rfl)))
          (by rw [rest_eq, shows]) frontSymbols word isGap goesOn
        have longer : above.length < (opening.image scan.pending (above ++ line)).length := beyond line starts
        rw [← imageEq] at longer
        omega

/-! ### The line of the head -/

theorem rest_past {scan : Blanking} {text later : Text} (ahead : scan.ahead = text ++ later)
    (plain : ∀ symbol ∈ text, isPlain symbol = true) : scan.rest = text ++ (scan.past text later).rest := by
  induction text generalizing scan with
  | nil =>
      rw [List.nil_append] at ahead
      rw [← ahead]
      rfl
  | cons symbol others ih =>
      have opening : scan.opening = .code := by
        rw [Blanking.opening, ahead]
        exact Opening.read_plain _ (plain symbol (List.mem_cons_self ..)) _
      have image : scan.image = [symbol] := by
        rw [Blanking.image, opening, ahead]
        rfl
      have stepped : scan.step = scan.past [symbol] (others ++ later) := by
        rw [step_eq, image, opening, ahead]
        rfl
      have rest := @ih (scan.past [symbol] (others ++ later)) rfl
        (fun other member => plain other (List.mem_cons_of_mem _ member))
      rw [rest_eq, image, stepped, rest]
      simp [past]

/-- An `=` that does not start a line is code. -/
theorem rest_past_equals {scan : Blanking} {later : Text} (ahead : scan.ahead = "=" ++ later)
    (inLine : ∃ previous ∈ scan.behind.head?, previous ≠ newline) :
    scan.rest = "=" ++ (scan.past "=" later).rest := by
  obtain ⟨previous, head, inside⟩ := inLine
  have opening : scan.opening = .code := by
    rw [Blanking.opening, ahead]
    change Opening.read scan.behind (.glyph '=' :: later) = .code
    rw [Opening.read, Option.mem_def.mp head, if_neg (by decide), if_neg (by simp [inside]), if_neg (by decide),
      if_neg (by decide), if_neg (by decide), if_neg (by decide), if_neg (by simp), if_neg (by simp)]
  have image : scan.image = "=" := by
    rw [Blanking.image, opening, ahead]
    rfl
  have stepped : scan.step = scan.past "=" later := by
    rw [step_eq, image, opening, ahead]
    rfl
  rw [rest_eq, image, stepped]

theorem rest_past_name {scan : Blanking} {name later : Text} (ordinary : Ordinary name)
    (ahead : scan.ahead = name ++ later) : scan.rest = name ++ (scan.past name later).rest := by
  cases ordinary with
  | word identifier free =>
      exact rest_past ahead fun symbol member => isPlain_of_isWord (identifier.words symbol member)
  | @assignment word identifier =>
      rw [List.append_assoc] at ahead
      rw [rest_past ahead fun symbol member => isPlain_of_isWord (identifier.words symbol member)]
      obtain ⟨others, last, rfl⟩ := (List.eq_nil_or_concat' word).resolve_left identifier.ne_nil
      have isWord := identifier.words last (by simp)
      have rest := @rest_past_equals (scan.past (others ++ [last]) (Text.ofString "=" ++ later)) later rfl
        ⟨last, by simp [past], ne_newline_of_isWord isWord⟩
      rw [rest]
      simp [past]

end Blanking

/-! ### The copy of a filled slot -/

theorem Ordinary.head {name : Text} (ordinary : Ordinary name) :
    ∃ first others, name = first :: others ∧ first.isWord = true := by
  have ofWord : ∀ {word : Text}, IsIdentifier word → ∀ tail : Text,
      ∃ first others, word ++ tail = first :: others ∧ first.isWord = true := by
    intro word identifier tail
    obtain ⟨first, others, rfl⟩ := List.exists_cons_of_ne_nil identifier.ne_nil
    exact ⟨first, others ++ tail, rfl, identifier.words first (List.mem_cons_self ..)⟩
  cases ordinary with
  | word identifier free =>
      have found := ofWord identifier []
      rwa [List.append_nil] at found
  | assignment identifier => exact ofWord identifier "="

namespace Slot

/-- Whether the head is code in the text in which the slot is filled with a name. -/
def Visible (slot : Slot) (name : Text) : Prop :=
  ∃ shown front rest, blank (slot.fill name) = shown ++ (front ++ ("def" ++ (slot.lead ++ (name ++ rest)))) ∧
    shown.length = slot.above.length ∧ front.length = slot.indent.length

/-- Whether a slot looks like another one with parts of the text hidden above and below the head. -/
structure Copies (copy slot : Slot) : Prop where
  above : copy.above.length = slot.above.length
  indent : copy.indent = slot.indent
  receiver : copy.receiver = slot.receiver
  lead : copy.lead = slot.lead
  gaps : copy.gaps = slot.gaps
  below : copy.below.length = slot.below.length

private theorem gaps_of_shown {indent front : Text} (gaps : ∀ symbol ∈ indent, isGap symbol = true)
    (shows : List.Forall₂ ShownFor indent front) : ∀ symbol ∈ front, isGap symbol = true := by
  induction shows with
  | nil => exact fun symbol member => by cases member
  | @cons original shown _ _ shownFor _ ih =>
      rw [List.forall_mem_cons] at gaps ⊢
      refine ⟨?_, ih gaps.2⟩
      rcases shownFor with same | isHidden
      · rw [same]
        exact gaps.1
      · rw [isHidden, hidden, if_neg (ne_newline_of_isGap gaps.1)]
        decide

/-- The scan after the head, up to the parenthesis. -/
def opened (slot : Slot) (pending : List Heredoc) (name : Text) : Blanking :=
  { behind := (slot.gaps ++ [Symbol.glyph '(']).reverse ++ (name.reverse ++ slot.front.reverse)
    ahead := slot.below
    shown := []
    pending := pending }

/-- On the line of the head the scan passes code. -/
theorem rest_head (slot : Slot) (pending : List Heredoc) {name : Text} (ordinary : Ordinary name) :
    Blanking.rest ⟨slot.above.reverse, slot.indent ++ ("def" ++ (slot.lead ++ (name ++ slot.back))), [], pending⟩ =
      slot.indent ++ ("def" ++ (slot.lead ++ (name ++
        (slot.gaps ++ .glyph '(' :: (slot.opened pending name).rest)))) := by
  have headPlain : ∀ symbol ∈ slot.indent ++ ("def" ++ slot.lead), isPlain symbol = true := by
    intro symbol member
    rcases List.mem_append.mp member with inIndent | inHead
    · exact isPlain_of_isGap (slot.indentGaps symbol inIndent)
    · rcases List.mem_append.mp inHead with inWord | inLead
      · exact isPlain_of_isWord ((by decide : ∀ symbol ∈ Text.ofString "def", symbol.isWord = true) symbol inWord)
      · exact slot.isLead.isPlain inLead
  have opensPlain : ∀ symbol ∈ slot.gaps ++ [Symbol.glyph '('], isPlain symbol = true := by
    intro symbol member
    rcases List.mem_append.mp member with inGaps | isOpening
    · exact isPlain_of_isGap (slot.gapsGaps symbol inGaps)
    · rw [List.mem_singleton.mp isOpening]
      decide
  have regrouped : slot.indent ++ ("def" ++ (slot.lead ++ (name ++ slot.back))) =
      (slot.indent ++ ("def" ++ slot.lead)) ++ (name ++ slot.back) := by simp
  have backEq : slot.back = (slot.gaps ++ [Symbol.glyph '(']) ++ slot.below := by simp [back]
  generalize startEq : (⟨slot.above.reverse, slot.indent ++ ("def" ++ (slot.lead ++ (name ++ slot.back))), [],
    pending⟩ : Blanking) = scan
  have ahead : scan.ahead = (slot.indent ++ ("def" ++ slot.lead)) ++ (name ++ slot.back) := by
    rw [← startEq]
    exact regrouped
  have first := Blanking.rest_past ahead headPlain
  have second := @Blanking.rest_past_name (scan.past (slot.indent ++ ("def" ++ slot.lead)) (name ++ slot.back)) _ _
    ordinary rfl
  have third := @Blanking.rest_past ((scan.past (slot.indent ++ ("def" ++ slot.lead)) (name ++ slot.back)).past name
    slot.back) _ _ backEq opensPlain
  have last : (((scan.past (slot.indent ++ ("def" ++ slot.lead)) (name ++ slot.back)).past name slot.back).past
      (slot.gaps ++ [Symbol.glyph '(']) slot.below).rest = (slot.opened pending name).rest := by
    rw [← startEq]
    simp [Blanking.rest, Blanking.past, opened, front, left]
  rw [first, second, third, last]
  simp

/-- If the head is code for one name, the copies for all names differ only in the name. -/
theorem exists_copy (slot : Slot) {name : Text} (ordinary : Ordinary name) (visible : slot.Visible name) :
    ∃ copy : Slot, copy.Copies slot ∧ ∀ other, Ordinary other → blank (slot.fill other) = copy.fill other := by
  obtain ⟨shown, front, rest, code, shownSize, frontSize⟩ := visible
  have shows := blank_images (slot.fill name)
  rw [code, fill_eq] at shows
  have aboveShows : List.Forall₂ ShownFor slot.above shown := by
    have taken := List.forall₂_take_append _ _ _ shows
    rwa [shownSize, List.take_left] at taken
  have frontGaps : ∀ symbol ∈ front, isGap symbol = true := by
    have dropped := List.forall₂_drop_append _ _ _ shows
    rw [shownSize, List.drop_left] at dropped
    have taken := List.forall₂_take_append _ _ _ dropped
    rw [frontSize, List.take_left] at taken
    exact gaps_of_shown slot.indentGaps taken
  obtain ⟨gap, others, leadEq, isGap⟩ := slot.isLead.head
  obtain ⟨first, tail, nameEq, word⟩ := ordinary.head
  have goesOn : ∃ other ∈ firstLine (others ++ (name ++ rest)), other.isBlank = false := by
    refine ⟨first, ?_, Symbol.isBlank_of_isWord word⟩
    rw [nameEq]
    refine Text.mem_firstLine ?_ (ne_newline_of_isWord word)
    intro member
    cases slot.isLead.isPlain (show newline ∈ slot.lead by simp [leadEq, member])
  have starts : ∃ first ∈ (slot.indent ++ ("def" ++ (slot.lead ++ (name ++ slot.back)))).head?, first ≠ newline := by
    cases indentEq : slot.indent with
    | nil => exact ⟨.glyph 'd', rfl, by decide⟩
    | cons gap gaps => exact ⟨gap, rfl, ne_newline_of_isGap (slot.indentGaps gap (by simp [indentEq]))⟩
  obtain ⟨pending, reached⟩ := Blanking.rest_at_line (Blanking.start_sound (slot.fill name))
    slot.whole (slot.fill_eq name) starts
    (show (Blanking.start (slot.fill name)).rest =
        shown ++ ((front ++ [.glyph 'd', .glyph 'e']) ++ .glyph 'f' :: gap :: (others ++ (name ++ rest))) by
      rw [← Blanking.blank_eq_rest, code, leadEq]
      simp [Text.ofString])
    shownSize
    (by
      intro symbol member
      rcases List.mem_append.mp member with inFront | inWord
      · exact Or.inl (frontGaps symbol inFront)
      · right
        simp only [List.mem_cons, List.not_mem_nil, or_false] at inWord
        rcases inWord with rfl | rfl <;> decide)
    (by decide) isGap goesOn
  have passes : ∀ {other}, Ordinary other → blank (slot.fill other) =
      shown ++ (slot.indent ++ ("def" ++ (slot.lead ++ (other ++
        (slot.gaps ++ .glyph '(' :: (slot.opened pending other).rest))))) := by
    intro other isOrdinary
    have line := reached (slot.indent ++ ("def" ++ (slot.lead ++ (other ++ slot.back))))
    rw [show (Blanking.start (slot.fill name)).behind = [] from rfl, List.append_nil,
      slot.rest_head pending isOrdinary] at line
    rw [Blanking.blank_eq_rest, ← line, fill_eq]
    rfl
  have fenced : Fenced (slot.gaps ++ [Symbol.glyph '(']).reverse := ⟨.glyph '(', by simp, by decide⟩
  refine ⟨{ slot with
    above := shown
    below := (slot.opened pending name).rest
    whole := Blanking.shown_whole slot.whole aboveShows }, ⟨shownSize, rfl, rfl, rfl, rfl, ?_⟩, ?_⟩
  · exact Blanking.rest_length _
  · intro other isOrdinary
    -- after the parenthesis the scan does not see the name
    have same : (slot.opened pending other).rest = (slot.opened pending name).rest :=
      Blanking.rest_fenced fenced rfl rfl rfl rfl
    rw [passes isOrdinary, fill_eq, same]

end Slot

end AccessorLint.Source
