import Mathlib
import AccessorLint.Proofs.Blanking
set_option autoImplicit false

/-!
Plain code: where the copy shows words, gaps, dots and brackets, the text has the same symbols, and the scan passes
them one by one.

The copy alone does not tell this, because what is hidden looks like gaps.  Two facts do.  After a word that is
followed by a gap and more on the same line, the scan is between two steps.  And from a place between two steps, plain
symbols up to a visible one are passed as code.
-/

namespace AccessorLint.Source

open AccessorLint.Symbol (newline)
open AccessorLint.Text (firstLine)

namespace Blanking

/-! ### Hidden symbols -/

theorem isBlank_hidden (symbol : Symbol) : (hidden symbol).isBlank = true := by
  rw [hidden]
  split <;> decide

theorem isBlank_of_mem_hidden {text : Text} {symbol : Symbol} (member : symbol ∈ text.map hidden) :
    symbol.isBlank = true := by
  obtain ⟨original, -, rfl⟩ := List.mem_map.mp member
  exact isBlank_hidden original

/-- The first symbol ahead is shown unless a comment starts there. -/
theorem image_head {scan : Blanking} {symbol : Symbol} {after : Text} (ahead : scan.ahead = symbol :: after) :
    (∃ others, scan.image = symbol :: others) ∨ scan.opening = .comment ∨ scan.opening = .blockComment := by
  have opens := opens_of_ahead ahead
  rw [image, ahead]
  generalize scan.opening = opening at opens
  cases opening with
  | comment => exact Or.inr (Or.inl rfl)
  | blockComment => exact Or.inr (Or.inr rfl)
  | lineEnd => exact Or.inl ⟨_, rfl⟩
  | literal delimiters length =>
      obtain ⟨fewer, rfl⟩ := Nat.exists_eq_succ_of_ne_zero (Nat.ne_of_gt (literal_length_pos opens))
      exact Or.inl ⟨_, rfl⟩
  | heredoc announced length =>
      cases opens with
      | heredoc same double _ _ found =>
          obtain ⟨_, _, _, _, rfl, -⟩ := Heredoc.announced?_shape found
          rw [Nat.add_comm]
          exact Or.inl ⟨_, rfl⟩
  | character => exact Or.inl ⟨_, rfl⟩
  | code => exact Or.inl ⟨_, rfl⟩

theorem rest_head_newline {scan : Blanking} {after : Text} (ahead : scan.ahead = newline :: after) :
    ∃ others, scan.rest = newline :: others := by
  have opening : scan.opening = .lineEnd := by
    rw [Blanking.opening, ahead, Opening.read, if_pos rfl]
  rw [rest_eq, image, opening, ahead]
  exact ⟨_, rfl⟩

theorem drop_firstLine (text : Text) : ∀ next ∈ (text.drop (firstLine text).length).head?, next = newline := by
  intro next member
  rcases Text.line_cases text with absent | ⟨line, below, absent, rfl⟩
  · rw [Text.firstLine_of_not_mem absent, List.drop_length] at member
    cases member
  · rw [Text.firstLine_append_newline absent, List.drop_left] at member
    exact (Option.some.inj member).symm

/-- After a comment the copy has ended or shows a newline, and all it shows for the comment is blank. -/
theorem comment_image {scan : Blanking}
    (comment : scan.opening = .comment ∨ scan.opening = .blockComment) :
    (∀ symbol ∈ scan.image, symbol.isBlank = true) ∧ ∀ next ∈ scan.step.rest.head?, next = newline := by
  have ends : (∀ symbol ∈ scan.image, symbol.isBlank = true) ∧
      ∀ next ∈ (scan.ahead.drop scan.image.length).head?, next = newline := by
    rcases comment with opening | opening
    · rw [image, opening, Opening.image]
      refine ⟨fun symbol member => isBlank_of_mem_hidden member, ?_⟩
      rw [List.length_map, List.length_take_of_le ((Text.firstLine_length_le _))]
      exact drop_firstLine scan.ahead
    · rw [image, opening, Opening.image]
      refine ⟨fun symbol member => isBlank_of_mem_hidden member, ?_⟩
      intro next member
      rw [List.length_map, List.length_take, ← List.drop_eq_drop_min, blockCommentLength, ← List.drop_drop] at member
      exact drop_firstLine _ next member
  refine ⟨ends.1, ?_⟩
  have ahead := scan.step_moves.ahead
  cases later : scan.ahead.drop scan.image.length with
  | nil =>
      rw [later] at ahead
      rw [rest_of_nil ahead]
      intro next member
      cases member
  | cons next below =>
      rw [later] at ahead
      have same : next = newline := ends.2 next (by rw [later]; rfl)
      rw [same] at ahead
      obtain ⟨others, rest⟩ := rest_head_newline ahead
      rw [rest]
      intro first member
      exact (Option.some.inj member).symm

/-! ### Plain symbols are passed as code -/

theorem rest_head_plain {scan : Blanking} {symbol : Symbol} {after : Text} (ahead : scan.ahead = symbol :: after)
    (plain : isPlain symbol = true) : ∃ others, scan.rest = symbol :: others := by
  have opening : scan.opening = .code := by
    rw [Blanking.opening, ahead]
    exact Opening.read_plain _ plain after
  rw [rest_eq, image, opening, ahead]
  exact ⟨_, rfl⟩

/-- Moves past symbols that are shown as they are. -/
def past (scan : Blanking) (text later : Text) : Blanking :=
  { behind := text.reverse ++ scan.behind
    ahead := later
    shown := text.reverse ++ scan.shown
    pending := scan.pending }

private theorem not_comment_of_plain {scan : Blanking} {text rest : Text} (shows : scan.rest = text ++ rest)
    (nonempty : text ≠ []) (plain : ∀ symbol ∈ text, isPlain symbol = true)
    (visible : ∀ last ∈ text.getLast?, last.isBlank = false) :
    ¬(scan.opening = .comment ∨ scan.opening = .blockComment) := by
  intro comment
  obtain ⟨blank, next⟩ := comment_image comment
  obtain ⟨first, last, rfl⟩ := (List.eq_nil_or_concat' text).resolve_left nonempty
  rw [List.getLast?_concat] at visible
  rw [rest_eq, List.append_assoc, List.singleton_append] at shows
  obtain ⟨between, firstEq, restEq⟩ := append_of_run blank (visible last rfl) shows.symm
  cases between with
  | nil =>
      have same := next last (by rw [restEq]; rfl)
      have isPlain := plain last (by simp)
      rw [same] at isPlain
      cases isPlain
  | cons symbol others =>
      have same := next symbol (by rw [restEq]; rfl)
      have isPlain := plain symbol (by simp [firstEq])
      rw [same] at isPlain
      cases isPlain

/-- Plain symbols up to a visible one stand in the text as the copy shows them. -/
theorem rest_of_plain (scan : Blanking) {text rest : Text} (shows : scan.rest = text ++ rest)
    (plain : ∀ symbol ∈ text, isPlain symbol = true) (visible : ∀ last ∈ text.getLast?, last.isBlank = false) :
    ∃ later, scan.ahead = text ++ later ∧ (scan.past text later).rest = rest := by
  induction text generalizing scan with
  | nil => exact ⟨scan.ahead, rfl, shows⟩
  | cons symbol others ih =>
      have noComment := not_comment_of_plain shows (List.cons_ne_nil _ _) plain visible
      have more : scan.ahead ≠ [] := by
        intro ended
        rw [rest_of_nil ended] at shows
        cases shows
      obtain ⟨first, after, ahead⟩ := List.exists_cons_of_ne_nil more
      obtain ⟨tail, image⟩ := (image_head ahead).resolve_right noComment
      have same : first = symbol := by
        rw [rest_eq, image, List.cons_append, List.cons_append] at shows
        exact (List.cons.inj shows).1
      subst same
      have opening : scan.opening = .code := by
        rw [Blanking.opening, ahead]
        exact Opening.read_plain _ (plain first (List.mem_cons_self ..)) after
      have stepped : scan.step = scan.past [first] after := by
        rw [step_eq, Blanking.image, opening, ahead]
        rfl
      have imageEq : scan.image = [first] := by
        rw [Blanking.image, opening, ahead]
        rfl
      rw [rest_eq, imageEq, stepped, List.singleton_append, List.cons_append, List.cons.injEq] at shows
      obtain ⟨later, afterEq, restEq⟩ := ih (scan.past [first] after) shows.2
        (fun other member => plain other (List.mem_cons_of_mem _ member))
        (fun last member => visible last (by
          rw [List.getLast?_cons, Option.mem_def.mp member]
          rfl))
      refine ⟨later, ?_, ?_⟩
      · rw [ahead, List.cons_append, List.cons.injEq]
        exact ⟨rfl, afterEq⟩
      · rw [← restEq]
        simp [past]

end Blanking

/-! ### After a word the scan is between two steps -/

/-- The line that ends a here-document has nothing after a gap that follows a visible symbol. -/
theorem Heredoc.blank_after_gap {heredoc : Heredoc} (words : ∀ symbol ∈ heredoc.terminator, symbol.isWord = true)
    {left right : Text} {symbol gap : Symbol} (visible : symbol.isBlank = false) (isGap : isGap gap = true)
    (ends : heredoc.endsAt (left ++ symbol :: gap :: right) = true) : ∀ other ∈ right, other.isBlank = true := by
  have absent : gap ∉ heredoc.terminator := by
    intro member
    have word := words gap member
    rw [isWord_of_isGap isGap] at word
    cases word
  intro other member
  by_contra notBlank
  have otherVisible : other.isBlank = false := Bool.eq_false_iff.mpr notBlank
  obtain ⟨middle, later, rfl⟩ := List.append_of_mem member
  have same := eq_of_beq ends
  split at same
  · have trimmed := Text.trim_append visible otherVisible left (gap :: middle) later
    rw [List.cons_append] at trimmed
    rw [trimmed] at same
    exact absent (by simp [← same])
  · exact absent (by simp [← same])

/-- The image of a here-document: blanks, and the line of its terminator, which may be the last of the text. -/
theorem Heredoc.image_shape (heredoc : Heredoc) (text : Text) :
    ∃ blanks line : Text, (∀ symbol ∈ blanks, symbol.isBlank = true) ∧ (line = [] ∨ heredoc.endsAt line = true) ∧
      (heredoc.image text = blanks ++ (line ++ [newline]) ∨
        heredoc.image text = blanks ++ line ∧ (heredoc.image text).length = text.length) := by
  refine ⟨(text.take (heredoc.bodyLength text)).map hidden, firstLine (text.drop (heredoc.bodyLength text)),
    fun symbol member => Blanking.isBlank_of_mem_hidden member, ?_, ?_⟩
  · rcases Nat.lt_or_ge text.length (heredoc.bodyLength text) with beyond | within
    · rw [List.drop_of_length_le (Nat.le_of_lt beyond)]
      exact Or.inl rfl
    · have stops : (!heredoc.endsAt (firstLine (text.drop (heredoc.bodyLength text)))) = false :=
        linesWhile_stops (fun line => !heredoc.endsAt line) text within
      exact Or.inr (by simpa using stops)
  · rw [image]
    generalize later : text.drop (heredoc.bodyLength text) = lines
    rcases Text.line_cases lines with absent | ⟨line, below, absent, rfl⟩
    · right
      rw [Text.firstLine_of_not_mem absent, List.take_of_length_le (Nat.le_succ _)]
      refine ⟨rfl, ?_⟩
      rw [← later, List.length_append, List.length_map, List.length_take, List.length_drop]
      omega
    · left
      rw [Text.firstLine_append_newline absent, List.take_length_add_append]
      rfl

namespace Blanking

/-- In the bodies of here-documents only lines of terminators show words, and after a gap they are blank. -/
theorem images_word_gap {heredocs : List Heredoc}
    (words : ∀ heredoc ∈ heredocs, ∀ symbol ∈ heredoc.terminator, symbol.isWord = true) {text left right : Text}
    {symbol gap : Symbol} (visible : symbol.isBlank = false) (isGap : isGap gap = true)
    (same : Heredoc.images heredocs text = left ++ symbol :: gap :: right) :
    ((∀ other ∈ right, other.isBlank = true) ∧ (Heredoc.images heredocs text).length = text.length) ∨
      ∃ blanks below, right = blanks ++ newline :: below ∧ ∀ other ∈ blanks, other.isBlank = true := by
  induction heredocs generalizing text left with
  | nil => simp [Heredoc.images] at same
  | cons heredoc others ih =>
      obtain ⟨blanks, line, blank, ends, shape⟩ := heredoc.image_shape text
      have lineWords := words heredoc (List.mem_cons_self ..)
      have otherWords := fun other member => words other (List.mem_cons_of_mem _ member)
      rw [Heredoc.images] at same ⊢
      rcases shape with image | ⟨image, whole⟩
      · rw [image, List.append_assoc, List.append_assoc, List.singleton_append] at same
        obtain ⟨between, leftEq, lineEq⟩ := append_of_run blank visible same.symm
        rcases List.append_eq_append_iff.mp lineEq with ⟨inLine, betweenEq, laterEq⟩ | ⟨inLine, lineEq, laterEq⟩
        · -- the word stands below the line of the terminator
          cases inLine with
          | nil =>
              obtain ⟨rfl, -⟩ := List.cons.inj laterEq
              cases visible
          | cons first more =>
              rw [List.cons_append, List.cons.injEq] at laterEq
              rcases ih otherWords laterEq.2 with ⟨blankRight, size⟩ | found
              · left
                refine ⟨blankRight, ?_⟩
                have within := heredoc.image_length_le text
                rw [← image] at size
                rw [List.length_append, size, List.length_drop]
                omega
              · exact Or.inr found
        · -- the word stands in the line of the terminator
          cases inLine with
          | nil =>
              obtain ⟨rfl, -⟩ := List.cons.inj laterEq
              cases visible
          | cons first more =>
              rw [List.cons_append, List.cons.injEq] at laterEq
              obtain ⟨rfl, laterEq⟩ := laterEq
              cases more with
              | nil =>
                  obtain ⟨rfl, -⟩ := List.cons.inj laterEq
                  cases isGap
              | cons second blanks =>
                  rw [List.cons_append, List.cons.injEq] at laterEq
                  obtain ⟨rfl, rightEq⟩ := laterEq
                  right
                  refine ⟨blanks, _, rightEq, ?_⟩
                  have endsLine := ends.resolve_left (by simp [lineEq])
                  rw [lineEq] at endsLine
                  exact Heredoc.blank_after_gap lineWords visible isGap endsLine
      · have none : Heredoc.images others (text.drop (heredoc.image text).length) = [] := by
          apply List.length_eq_zero_iff.mp
          have within := Heredoc.images_length_le others (text.drop (heredoc.image text).length)
          rw [whole, List.drop_length, List.length_nil] at within
          rw [whole, List.drop_length]
          omega
        rw [none, List.append_nil] at same ⊢
        rw [image] at same
        obtain ⟨between, leftEq, lineEq⟩ := append_of_run blank visible same.symm
        left
        have endsLine := ends.resolve_left (by simp [lineEq])
        rw [lineEq] at endsLine
        exact ⟨Heredoc.blank_after_gap lineWords visible isGap endsLine, whole⟩

/-- Whether the terminators of all pending here-documents are words. -/
def Sound (scan : Blanking) : Prop :=
  ∀ heredoc ∈ scan.pending, ∀ symbol ∈ heredoc.terminator, symbol.isWord = true

theorem start_sound (text : Text) : (start text).Sound := by
  intro heredoc member
  cases member

theorem step_sound {scan : Blanking} (sound : scan.Sound) : scan.step.Sound := by
  intro heredoc member
  rw [step_pending] at member
  cases ahead : scan.ahead with
  | nil =>
      rw [opening, ahead] at member
      exact sound heredoc member
  | cons symbol after =>
      have opens := opens_of_ahead ahead
      generalize scan.opening = opening at opens member
      cases opens with
      | lineEnd => cases member
      | heredoc same double announced length found =>
          rcases List.mem_append.mp member with old | new
          · exact sound heredoc old
          · rw [List.mem_singleton.mp new]
            exact (Heredoc.announced?_shape found).choose_spec.choose_spec.choose_spec.2.2.2
      | blockComment => exact sound heredoc member
      | comment => exact sound heredoc member
      | quoted => exact sound heredoc member
      | percent => exact sound heredoc member
      | regex => exact sound heredoc member
      | character => exact sound heredoc member
      | code => exact sound heredoc member

/-- The announcement of a here-document has no gaps. -/
theorem announcement_no_gap {symbol : Symbol} {after : Text} (same : symbol = .glyph '<')
    (double : after.head? = some (.glyph '<')) {announced : Heredoc} {length : Nat}
    (found : Heredoc.announced? (symbol :: after) = some (announced, length)) :
    ∀ other ∈ (symbol :: after).take length, isGap other = false := by
  obtain ⟨lead, tail, rest, textEq, rfl, marks, words⟩ := Heredoc.announced?_shape found
  obtain ⟨below, rfl⟩ := List.head?_eq_some_iff.mp double
  rw [List.drop_succ_cons, List.drop_succ_cons, List.drop_zero] at textEq
  intro other member
  rw [textEq, Nat.add_comm, List.take_succ_cons, List.take_succ_cons, List.take_left, List.mem_cons, List.mem_cons]
    at member
  rcases member with rfl | rfl | inside
  · rw [same]
    decide
  · decide
  · rw [Bool.eq_false_iff]
    intro gap
    have blank := isWord_of_isGap gap
    simp only [List.mem_append] at inside marks
    rcases inside with (inLead | inTerminator) | inTail
    · have mark := marks other (Or.inl inLead)
      rcases (isGap_iff other).mp gap with rfl | rfl <;> cases mark
    · rw [words other inTerminator] at blank
      cases blank
    · have mark := marks other (Or.inr inTail)
      rcases (isGap_iff other).mp gap with rfl | rfl <;> cases mark

/-- What is shown for a literal after its opening is blank, but for the closing delimiter at the end. -/
theorem Delimiters.image_no_word_gap (delimiters : Delimiters) (text left right : Text) {symbol gap : Symbol}
    (visible : symbol.isBlank = false) : delimiters.image text ≠ left ++ symbol :: gap :: right := by
  intro same
  obtain ⟨between, -, closing⟩ := append_of_run (fun other => isBlank_of_mem_hidden) visible same.symm
  have size := congrArg List.length closing
  simp only [List.length_take, List.length_append, List.length_cons] at size
  omega

private theorem cons_ne_word_gap {first : Symbol} {rest right : Text} {letter gap : Symbol}
    (word : letter.isAlphanumeric = true) (isGap : isGap gap = true)
    (apart : first.isAlphanumeric = false ∨ ∀ next ∈ rest.head?, next.isBlank = false)
    (later : ∀ left, rest ≠ left ++ letter :: gap :: right) (left : Text) :
    first :: rest ≠ left ++ letter :: gap :: right := by
  intro same
  cases left with
  | nil =>
      rw [List.nil_append, List.cons.injEq] at same
      obtain ⟨rfl, rfl⟩ := same
      rcases apart with noWord | noBlank
      · rw [word] at noWord
        cases noWord
      · have blank := noBlank gap rfl
        rw [isBlank_of_isGap isGap] at blank
        cases blank
  | cons other others =>
      rw [List.cons_append, List.cons.injEq] at same
      exact later others same.2

/-- The opening of a literal does not show a word and a gap after it. -/
theorem literal_no_word_gap {behind after : Text} {symbol : Symbol} {delimiters : Delimiters} {length : Nat}
    (opens : Opens behind symbol after (.literal delimiters length)) {left right body : Text} {letter gap : Symbol}
    (word : letter.isAlphanumeric = true) (isGap : isGap gap = true)
    (later : ∀ left, body ≠ left ++ letter :: gap :: right) :
    (symbol :: after).take length ++ body ≠ left ++ letter :: gap :: right := by
  cases opens with
  | quoted quote =>
      refine cons_ne_word_gap word isGap (Or.inl ?_) later left
      exact (Delimiters.quoted_proper quote).opening_alphanumeric
  | regex same =>
      subst same
      exact cons_ne_word_gap word isGap (Or.inl (by decide)) later left
  | percent same _ _ found =>
      subst same
      obtain ⟨noWord, noBlank, -, shape⟩ := percentLiteral?_shape found
      rcases shape with ⟨rfl, opening⟩ | ⟨kind, -, rfl, opening⟩
      · rw [List.take_succ_cons, opening]
        exact cons_ne_word_gap word isGap (Or.inl (by decide))
          (cons_ne_word_gap word isGap (Or.inl noWord) later) left
      · rw [List.take_succ_cons, opening]
        refine cons_ne_word_gap word isGap (Or.inl (by decide)) (cons_ne_word_gap word isGap (Or.inr ?_)
          (cons_ne_word_gap word isGap (Or.inl noWord) later)) left
        intro next member
        rw [← Option.some.inj member]
        exact noBlank

/-- No step passes a word and a gap after it, unless the rest of the line is blank. -/
theorem image_word_gap {scan : Blanking} (sound : scan.Sound) {left right : Text} {symbol gap : Symbol}
    (word : symbol.isAlphanumeric = true) (visible : symbol.isBlank = false) (isGap : isGap gap = true)
    (same : scan.image = left ++ symbol :: gap :: right) :
    ∀ other ∈ firstLine (right ++ scan.step.rest), other.isBlank = true := by
  have more : scan.ahead ≠ [] := by
    intro ended
    have within := scan.image_length_le
    rw [same, ended, List.length_append, List.length_cons, List.length_nil] at within
    omega
  obtain ⟨first, after, ahead⟩ := List.exists_cons_of_ne_nil more
  have hiddenImage : (∀ other ∈ scan.image, other.isBlank = true) → False := by
    intro blank
    have isBlank := blank symbol (by simp [same])
    rw [visible] at isBlank
    cases isBlank
  have opens := opens_of_ahead ahead
  generalize opening : scan.opening = kind at opens
  cases kind with
  | comment => exact absurd (comment_image (Or.inl opening)).1 hiddenImage
  | blockComment => exact absurd (comment_image (Or.inr opening)).1 hiddenImage
  | lineEnd =>
      have isLine : first = newline := by cases opens; assumption
      subst isLine
      rw [image, opening, ahead] at same
      cases left with
      | nil =>
          obtain ⟨rfl, -⟩ := List.cons.inj same
          cases visible
      | cons other others =>
          have bodies : Heredoc.images scan.pending after = others ++ symbol :: gap :: right := (List.cons.inj same).2
          rcases images_word_gap sound visible isGap bodies with ⟨blank, whole⟩ | ⟨blanks, below, rightEq, blank⟩
          · have ended : scan.step.ahead = [] := by
              rw [scan.step_moves.ahead, image, opening, ahead]
              apply List.drop_of_length_le
              change after.length + 1 ≤ (Heredoc.images scan.pending after).length + 1
              omega
            rw [rest_of_nil ended, List.append_nil]
            exact fun other member => blank other (List.takeWhile_subset _ member)
          · rw [rightEq, List.append_assoc, List.cons_append]
            exact fun other member => blank other (Text.mem_of_mem_firstLine_append member)
  | literal delimiters length =>
      rw [image, opening, ahead] at same
      exact absurd same (literal_no_word_gap opens word isGap
        (fun left => Delimiters.image_no_word_gap delimiters _ left right visible))
  | heredoc announced length =>
      cases opens with
      | heredoc isLess double _ _ found =>
          rw [image, opening, ahead] at same
          have inside : gap ∈ Opening.image scan.pending (first :: after) (.heredoc announced length) := by
            simp [same]
          have noGap := announcement_no_gap isLess double found gap inside
          rw [isGap] at noGap
          cases noGap
  | character =>
      rw [image, opening, ahead] at same
      have size := congrArg List.length same
      simp only [Opening.image, List.length_append, List.length_map, List.length_take, List.length_cons,
        List.length_drop] at size
      have leftNil : left = [] := List.length_eq_zero_iff.mp (by omega)
      subst leftNil
      obtain ⟨rfl, -⟩ := List.cons.inj same
      cases opens with
      | character isMark =>
          subst isMark
          cases word
  | code =>
      rw [image, opening, ahead] at same
      have size := congrArg List.length same
      simp only [Opening.image, List.length_append, List.length_take, List.length_cons] at size
      omega

/-- After a word that a gap and more on the line follow, the scan is between two steps. -/
theorem between_steps_after_word (scan : Blanking) (sound : scan.Sound) {left right : Text} {symbol gap : Symbol}
    (word : symbol.isAlphanumeric = true) (visible : symbol.isBlank = false) (isGap : isGap gap = true)
    (goesOn : ∃ other ∈ firstLine right, other.isBlank = false)
    (shows : scan.rest = left ++ symbol :: gap :: right) :
    ∃ next : Blanking, Moves scan next (left ++ [symbol]) ∧ next.rest = gap :: right := by
  induction size : scan.ahead.length using Nat.strong_induction_on generalizing scan left with
  | _ length ih =>
      have more : scan.ahead ≠ [] := by
        intro ended
        rw [rest_of_nil ended] at shows
        simp at shows
      have positive := image_pos more
      have shorter := scan.step_ahead_length
      have within := scan.image_length_le
      rw [rest_eq] at shows
      rcases List.append_eq_append_iff.mp shows with ⟨between, leftEq, restEq⟩ | ⟨tail, imageEq, restEq⟩
      · -- the step ends before the word
        obtain ⟨next, moves, rest⟩ := ih scan.step.ahead.length (by omega) scan.step (step_sound sound) restEq rfl
        refine ⟨next, ?_, rest⟩
        rw [leftEq, List.append_assoc]
        exact scan.step_moves.trans moves
      · cases tail with
        | nil =>
            rw [List.append_nil] at imageEq
            obtain ⟨next, moves, rest⟩ :=
              ih scan.step.ahead.length (by omega) scan.step (step_sound sound)
                (show scan.step.rest = [] ++ symbol :: gap :: right from restEq.symm) rfl
            refine ⟨next, ?_, rest⟩
            rw [← imageEq]
            exact scan.step_moves.trans moves
        | cons first others =>
            rw [List.cons_append, List.cons.injEq] at restEq
            obtain ⟨rfl, restEq⟩ := restEq
            cases others with
            | nil =>
                -- the step ends with the word
                refine ⟨scan.step, ?_, restEq.symm⟩
                rw [← imageEq]
                exact scan.step_moves
            | cons second others =>
                rw [List.cons_append, List.cons.injEq] at restEq
                obtain ⟨rfl, rightEq⟩ := restEq
                have blank := image_word_gap sound word visible isGap imageEq
                obtain ⟨other, member, otherVisible⟩ := goesOn
                rw [rightEq] at member
                rw [blank other member] at otherVisible
                cases otherVisible

end Blanking

end AccessorLint.Source
