import Mathlib
import AccessorLint.Proofs.Alignment
set_option autoImplicit false

/-!
The bodies of pending here-documents.

The here-documents that a line announces have their bodies below it, in the order of the announcements.  A `Passage` is
a here-document with the lines that stand for it: those of its body and the one that ends it.  Passages one below the
other are passed as a whole, whatever follows.  A here-document that no line ends takes the rest of the text, and then
nothing is left for the later ones.
-/

namespace AccessorLint.Text

open AccessorLint.Symbol (newline)

/-! ### Parts with newlines -/

/-- Parts of a text, each with a newline after it. -/
def withNewlines (parts : List Text) : Text :=
  parts.flatMap (· ++ [newline])

theorem withNewlines_cons (part : Text) (others : List Text) :
    withNewlines (part :: others) = part ++ newline :: withNewlines others := by
  simp [withNewlines]

theorem withNewlines_length_congr {left right : List Text} (same : left.map List.length = right.map List.length) :
    (withNewlines left).length = (withNewlines right).length := by
  have sizes : ∀ parts : List Text, (withNewlines parts).length = ((parts.map List.length).map (· + 1)).sum := by
    intro parts
    rw [withNewlines, List.length_flatMap, List.map_map]
    simp [Function.comp_def]
  rw [sizes, sizes, same]

/-- The lines of a text that start before its end: what follows a newline at the end is none of them. -/
def startedLines (text : Text) : List Text :=
  if text.lines.getLast? = some [] then text.lines.dropLast else text.lines

theorem startedLines_line {line : Text} (absent : newline ∉ line) (rest : Text) :
    startedLines (line ++ newline :: rest) = line :: startedLines rest := by
  obtain ⟨first, others, parts⟩ := List.exists_cons_of_ne_nil (split_ne_nil newline rest)
  have below : rest.lines = first :: others := parts
  have whole : (line ++ newline :: rest).lines = line :: first :: others := by
    rw [lines_append_newline, lines_of_not_mem absent, below]
    rfl
  rw [startedLines, startedLines, whole, below, List.getLast?_cons_cons, List.dropLast_cons_cons]
  split_ifs <;> rfl

theorem startedLines_last {line : Text} (absent : newline ∉ line) (nonempty : line ≠ []) : startedLines line = [line] := by
  rw [startedLines, lines_of_not_mem absent, if_neg]
  simpa using nonempty

end AccessorLint.Text

namespace AccessorLint.Source

open AccessorLint.Symbol (newline)
open AccessorLint.Text (firstLine withNewlines startedLines)

/-! ### Hidden lines -/

/-- As many spaces as a line has symbols. -/
def spaces (line : Text) : Text :=
  Text.repeated line.length ' '

theorem map_hidden_line {line : Text} (absent : newline ∉ line) : line.map hidden = spaces line := by
  rw [spaces, Text.repeated, List.map_eq_replicate_iff]
  intro symbol member
  rw [hidden, if_neg]
  rintro rfl
  exact absent member

theorem map_hidden_lines {lines : List Text} (single : ∀ line ∈ lines, newline ∉ line) :
    (withNewlines lines).map hidden = withNewlines (lines.map spaces) := by
  rw [withNewlines, withNewlines, List.map_flatMap, List.flatMap_map]
  refine List.flatMap_congr fun line member => ?_
  rw [List.map_append, map_hidden_line (single line member)]
  rfl

/-! ### One body -/

namespace Heredoc

/-- Whether a line ends the here-document: it is the terminator, and blanks around it do not count if the here-document
is indented. -/
def IsEnd (heredoc : Heredoc) (line : Text) : Prop :=
  if heredoc.indented then line.trim = heredoc.terminator else line = heredoc.terminator

instance (heredoc : Heredoc) (line : Text) : Decidable (heredoc.IsEnd line) :=
  inferInstanceAs (Decidable (if heredoc.indented then line.trim = heredoc.terminator else line = heredoc.terminator))

theorem endsAt_iff (heredoc : Heredoc) (line : Text) : heredoc.endsAt line = true ↔ heredoc.IsEnd line := by
  rw [endsAt, IsEnd, beq_iff_eq]
  split_ifs <;> rfl

theorem endsAt_eq_false_iff (heredoc : Heredoc) (line : Text) : heredoc.endsAt line = false ↔ ¬heredoc.IsEnd line := by
  rw [← endsAt_iff, Bool.not_eq_true]

theorem bodyLength_lines (heredoc : Heredoc) {lines : List Text} (single : ∀ line ∈ lines, newline ∉ line)
    (continues : ∀ line ∈ lines, ¬heredoc.IsEnd line) (below : Text) :
    heredoc.bodyLength (withNewlines lines ++ below) = (withNewlines lines).length + heredoc.bodyLength below := by
  induction lines with
  | nil => exact (Nat.zero_add _).symm
  | cons line others ih =>
      rw [List.forall_mem_cons] at single continues
      have passed : heredoc.endsAt line = false := (heredoc.endsAt_eq_false_iff line).mpr continues.1
      rw [Text.withNewlines_cons, List.append_assoc, List.cons_append, heredoc.bodyLength_line single.1, passed,
        if_neg Bool.false_ne_true, ih single.2 continues.2, List.length_append, List.length_cons]
      omega

theorem bodyLength_of_isEnd {heredoc : Heredoc} {text : Text} (ends : heredoc.IsEnd (firstLine text)) :
    heredoc.bodyLength text = 0 := by
  have found := (heredoc.endsAt_iff _).mpr ends
  rcases Text.line_cases text with absent | ⟨line, rest, absent, rfl⟩
  · rw [Text.firstLine_of_not_mem absent] at found
    change linesWhile (fun line => !heredoc.endsAt line) text = 0
    rw [linesWhile_last _ absent, found]
    rfl
  · rw [Text.firstLine_append_newline absent] at found
    rw [heredoc.bodyLength_line absent, found, if_pos rfl]

/-- A here-document that no line ends takes the whole text. -/
theorem length_le_bodyLength {heredoc : Heredoc} {text : Text}
    (continues : ∀ line ∈ startedLines text, ¬heredoc.IsEnd line) : text.length ≤ heredoc.bodyLength text := by
  induction text using Text.line_induction with
  | last line absent =>
      by_cases empty : line = []
      · -- after a newline at the end of the text nothing is left to hide, even if the terminator is empty
        rw [empty]
        exact Nat.zero_le _
      · rw [Text.startedLines_last absent empty, List.forall_mem_singleton] at continues
        change _ ≤ linesWhile (fun line => !heredoc.endsAt line) line
        rw [linesWhile_last _ absent, (heredoc.endsAt_eq_false_iff line).mpr continues]
        exact Nat.le_succ _
  | line line rest absent ih =>
      rw [Text.startedLines_line absent, List.forall_mem_cons] at continues
      have below := ih continues.2
      rw [heredoc.bodyLength_line absent, (heredoc.endsAt_eq_false_iff line).mpr continues.1,
        if_neg Bool.false_ne_true, List.length_append, List.length_cons]
      omega

theorem image_lines {heredoc : Heredoc} {lines : List Text} (single : ∀ line ∈ lines, newline ∉ line)
    (continues : ∀ line ∈ lines, ¬heredoc.IsEnd line) {below : Text} (ends : heredoc.IsEnd (firstLine below)) :
    heredoc.image (withNewlines lines ++ below) =
      withNewlines (lines.map spaces) ++ below.take ((firstLine below).length + 1) := by
  have body := heredoc.bodyLength_lines single continues below
  rw [bodyLength_of_isEnd ends, Nat.add_zero] at body
  simp only [image]
  rw [body, List.take_left, List.drop_left, map_hidden_lines single]

theorem image_of_no_end {heredoc : Heredoc} {text : Text} (continues : ∀ line ∈ startedLines text, ¬heredoc.IsEnd line) :
    heredoc.image text = text.map hidden := by
  have beyond := length_le_bodyLength continues
  simp only [image]
  rw [List.take_of_length_le beyond, List.drop_of_length_le beyond, List.take_nil, List.append_nil]

theorem images_of_whole {heredoc : Heredoc} {text : Text} (whole : (heredoc.image text).length = text.length)
    (later : List Heredoc) : images (heredoc :: later) text = heredoc.image text := by
  -- the later here-documents find no text
  have nothing : images later [] = [] := List.length_eq_zero_iff.mp (Nat.le_zero.mp (images_length_le later []))
  rw [images, whole, List.drop_length, nothing, List.append_nil]

end Heredoc

/-! ### One body below the other -/

/-- A here-document with the lines that stand for it in a text: those of its body and the one that ends it. -/
structure Passage where
  heredoc : Heredoc
  body : List Text
  ending : Text
  single : ∀ line ∈ body, newline ∉ line
  continues : ∀ line ∈ body, ¬heredoc.IsEnd line
  endingSingle : newline ∉ ending
  ends : heredoc.IsEnd ending

namespace Passage

/-- The passage in a text, but for the newline of the line that ends it. -/
def text (passage : Passage) : Text :=
  withNewlines passage.body ++ passage.ending

/-- The passage in the copy: the lines of the body are spaces. -/
def copy (passage : Passage) : Text :=
  withNewlines (passage.body.map spaces) ++ passage.ending

theorem copy_length (passage : Passage) : passage.copy.length = passage.text.length := by
  have body : (withNewlines (passage.body.map spaces)).length = (withNewlines passage.body).length := by
    apply Text.withNewlines_length_congr
    simp [spaces, Text.repeated, Function.comp_def]
  rw [copy, text, List.length_append, List.length_append, body]

/-- The image of a passage, whether a newline follows or the end of the text. -/
theorem image_text_append (passage : Passage) {rest : Text} (ended : ∀ next ∈ rest.head?, next = newline) :
    passage.heredoc.image (passage.text ++ rest) = passage.copy ++ rest.take 1 := by
  have first : firstLine (passage.ending ++ rest) = passage.ending := by
    cases rest with
    | nil => rw [List.append_nil, Text.firstLine_of_not_mem passage.endingSingle]
    | cons next others =>
        obtain rfl := ended next rfl
        exact Text.firstLine_append_newline passage.endingSingle others
  rw [text, List.append_assoc, Heredoc.image_lines passage.single passage.continues (first.symm ▸ passage.ends), first,
    List.take_length_add_append, copy, List.append_assoc]

/-- Passages one below the other are shown each by itself, and what is below them is left to the here-documents that
come later. -/
theorem images_append (passages : List Passage) (later : List Heredoc) (below : Text) :
    Heredoc.images (passages.map heredoc ++ later) (withNewlines (passages.map text) ++ below) =
      withNewlines (passages.map copy) ++ Heredoc.images later below := by
  induction passages with
  | nil => rfl
  | cons passage others ih =>
      let under := withNewlines (others.map text) ++ below
      have first : passage.heredoc.image (passage.text ++ newline :: under) = passage.copy ++ [newline] :=
        passage.image_text_append (by simp)
      have passed : (passage.text ++ newline :: under).drop (passage.copy ++ [newline]).length = under := by
        have size : (passage.copy ++ [newline]).length = (passage.text ++ [newline]).length := by
          rw [List.length_append, List.length_append, passage.copy_length]
        rw [size, List.append_cons passage.text newline under, List.drop_left]
      calc
        Heredoc.images ((passage :: others).map heredoc ++ later) (withNewlines ((passage :: others).map text) ++ below)
        _ = Heredoc.images (passage.heredoc :: (others.map heredoc ++ later)) (passage.text ++ newline :: under) := by
          rw [List.map_cons, List.map_cons, Text.withNewlines_cons, List.append_assoc]
          rfl
        _ = passage.copy ++ [newline] ++ Heredoc.images (others.map heredoc ++ later) under := by
          rw [Heredoc.images, first, passed]
        _ = withNewlines ((passage :: others).map copy) ++ Heredoc.images later below := by
          rw [ih, List.map_cons, Text.withNewlines_cons]
          simp

theorem copies_length (passages : List Passage) :
    (withNewlines (passages.map copy)).length = (withNewlines (passages.map text)).length := by
  apply Text.withNewlines_length_congr
  rw [List.map_map, List.map_map]
  exact List.map_congr_left fun passage _ => passage.copy_length

end Passage

theorem Blanking.skipBodies_eq {above before ahead passed rest shown : Text} {pending : List Heredoc}
    (split : ahead = passed ++ rest) (images : Heredoc.images pending ahead = shown)
    (size : shown.length = passed.length) :
    skipBodies ⟨above.reverse, ahead, before.reverse, pending⟩ =
      ⟨(above ++ passed).reverse, rest, (before ++ shown).reverse, []⟩ := by
  generalize start : (⟨above.reverse, ahead, before.reverse, pending⟩ : Blanking) = scan
  have moves : Moves scan scan.skipBodies shown := by
    have moved := skipBodies_moves scan
    rwa [← start, images, start] at moved
  have behindEq : scan.skipBodies.behind = (above ++ passed).reverse := by
    rw [moves.behind, ← start, size, split, List.take_left, List.reverse_append]
  have aheadEq : scan.skipBodies.ahead = rest := by
    rw [moves.ahead, ← start, size, split, List.drop_left]
  have shownEq : scan.skipBodies.shown = (before ++ shown).reverse := by
    rw [moves.shown, ← start, List.reverse_append]
  rw [← behindEq, ← aheadEq, ← shownEq]
  rfl

/-- Where passages are followed by a here-document that takes the rest of the text, the scan comes to the end, whatever
else is pending. -/
theorem Blanking.skipBodies_of_whole (above before : Text) (passages : List Passage) (later : List Heredoc)
    {heredoc : Heredoc} {remaining shown : Text} (image : heredoc.image remaining = shown)
    (whole : shown.length = remaining.length) :
    let written := withNewlines (passages.map Passage.text) ++ remaining
    skipBodies ⟨above.reverse, written, before.reverse, passages.map Passage.heredoc ++ heredoc :: later⟩ =
      ⟨(above ++ written).reverse, [], (before ++ (withNewlines (passages.map Passage.copy) ++ shown)).reverse, []⟩ := by
  have images := Passage.images_append passages (heredoc :: later) remaining
  rw [Heredoc.images_of_whole (image.symm ▸ whole), image] at images
  refine skipBodies_eq (List.append_nil _).symm images ?_
  rw [List.length_append, List.length_append, Passage.copies_length, whole]

/-- The bodies of pending here-documents are hidden, and the lines that end them are kept.  The scan comes to what is
below the last of these lines, and all before the bodies stays as it is.  A here-document that no line ends hides the
rest of the text, and one that the last line ends needs no newline there; in both cases the scan comes to the end, and
the here-documents that come later have no bodies. -/
theorem pending_bodies_hidden (above before : Text) (passages : List Passage) :
    let written := withNewlines (passages.map Passage.text)
    let copied := withNewlines (passages.map Passage.copy)
    (∀ rest : Text,
      Blanking.skipBodies ⟨above.reverse, written ++ rest, before.reverse, passages.map Passage.heredoc⟩ =
        ⟨(above ++ written).reverse, rest, (before ++ copied).reverse, []⟩) ∧
    (∀ (heredoc : Heredoc) (later : List Heredoc) (remaining : Text),
      (∀ line ∈ startedLines remaining, ¬heredoc.IsEnd line) →
      Blanking.skipBodies ⟨above.reverse, written ++ remaining, before.reverse,
          passages.map Passage.heredoc ++ heredoc :: later⟩ =
        ⟨(above ++ (written ++ remaining)).reverse, [], (before ++ (copied ++ remaining.map hidden)).reverse, []⟩) ∧
    ∀ (last : Passage) (later : List Heredoc),
      Blanking.skipBodies ⟨above.reverse, written ++ last.text, before.reverse,
          passages.map Passage.heredoc ++ last.heredoc :: later⟩ =
        ⟨(above ++ (written ++ last.text)).reverse, [], (before ++ (copied ++ last.copy)).reverse, []⟩ := by
  intro written copied
  refine ⟨fun rest => ?_, fun heredoc later remaining continues => ?_, fun last later => ?_⟩
  · have images := Passage.images_append passages [] rest
    rw [List.append_nil, Heredoc.images, List.append_nil] at images
    exact Blanking.skipBodies_eq rfl images (Passage.copies_length passages)
  · have image := Heredoc.image_of_no_end continues
    exact Blanking.skipBodies_of_whole above before passages later image (List.length_map _)
  · have image : last.heredoc.image (last.text ++ []) = last.copy ++ [] := last.image_text_append (by simp)
    rw [List.append_nil, List.append_nil] at image
    exact Blanking.skipBodies_of_whole above before passages later image last.copy_length

-- Each body has a line that would end another here-document, and the third terminator is there only with blanks.
theorem bodies_with_foreign_terminators_hidden :
    let indented : Passage := ⟨⟨true, "A"⟩, ["B", " A A"], "\tA ", by decide, by decide, by decide, by decide⟩
    let plain : Passage := ⟨⟨false, "B"⟩, ["A", " B"], "B", by decide, by decide, by decide, by decide⟩
    let above : Text := "f(<<~A, <<B)\n"
    let remaining : Text := "end\n C"
    Blanking.skipBodies ⟨above.reverse, "B\n A A\n\tA \nA\n B\nB\nend\n C", above.reverse,
        [indented.heredoc, plain.heredoc]⟩ =
      ⟨(above ++ "B\n A A\n\tA \nA\n B\nB\n").reverse, remaining,
        (above ++ " \n    \n\tA \n \n  \nB\n").reverse, []⟩ ∧
    (∀ line ∈ startedLines remaining, ¬(⟨false, "C"⟩ : Heredoc).IsEnd line) ∧
    Blanking.skipBodies ⟨above.reverse, "B\n A A\n\tA \nA\n B\nB\nend\n C", above.reverse,
        [indented.heredoc, plain.heredoc, ⟨false, "C"⟩, ⟨true, "C"⟩]⟩ =
      ⟨(above ++ "B\n A A\n\tA \nA\n B\nB\nend\n C").reverse, [],
        (above ++ " \n    \n\tA \n \n  \nB\n   \n  ").reverse, []⟩ := by
  intro indented plain above remaining
  have noEnd : ∀ line ∈ startedLines remaining, ¬(⟨false, "C"⟩ : Heredoc).IsEnd line := by decide
  obtain ⟨ended, unended, -⟩ := pending_bodies_hidden above above [indented, plain]
  exact ⟨ended remaining, noEnd, unended ⟨false, "C"⟩ [⟨true, "C"⟩] remaining noEnd⟩

end AccessorLint.Source
