import Mathlib
import AccessorLint.Proofs.Alignment
import AccessorLint.Proofs.PlainCode
set_option autoImplicit false

/-!
What blanking looks at.

What starts at a place is read from the line that the place is in, so what stands below the line does not matter.
Where it ends is settled inside some whole lines, or lies below them whatever stands there.  To the left, the scan does
not look behind a symbol that is neither a gap nor part of a word.
-/

namespace AccessorLint.Source

open AccessorLint.Symbol (newline)
open AccessorLint.Text (WholeLines firstLine)

/-! ### One line ahead

A blank symbol ends what is read of a line, be it the newline after the line or a blank before the newline. -/

theorem startsWith_stop {needle : Text} {stop : Symbol} (absent : stop ∉ needle) (line below : Text) :
    Text.startsWith (line ++ stop :: below) needle = Text.startsWith line needle := by
  unfold Text.startsWith
  induction needle generalizing line with
  | nil => simp
  | cons first others ih =>
      rw [List.mem_cons, not_or] at absent
      cases line with
      | nil =>
          rw [List.nil_append, List.isPrefixOf_cons_cons, beq_eq_false_iff_ne.mpr (Ne.symm absent.1)]
          rfl
      | cons symbol rest => rw [List.cons_append, List.isPrefixOf_cons_cons, List.isPrefixOf_cons_cons, ih absent.2]

theorem not_mem_of_isBlank {stop : Symbol} (blank : stop.isBlank = true) {text : Text}
    (visible : (text.all fun symbol => !symbol.isBlank) = true) : stop ∉ text := by
  intro member
  have noBlank := List.all_eq_true.mp visible stop member
  rw [blank] at noBlank
  cases noBlank

theorem percentLiteral?_stop (behind line : Text) {stop : Symbol} (blank : stop.isBlank = true) (below : Text) :
    percentLiteral? behind (line ++ stop :: below) = percentLiteral? behind line := by
  unfold percentLiteral?
  have noKind : stop.isOneOf "qQwWiIrsx" = false := Symbol.isOneOf_of_isBlank blank (by decide)
  cases line with
  | nil => simp [noKind, blank]
  | cons first others =>
      cases kind : first.isOneOf "qQwWiIrsx" with
      | false => simp [kind]
      | true =>
          cases others with
          | nil => simp [kind, blank]
          | cons second rest => simp [kind]

theorem startsRegex_stop (behind : Text) {line : Text} (absent : newline ∉ line) {stop : Symbol}
    (blank : stop.isBlank = true) {below : Text} (last : .glyph '/' ∉ firstLine (stop :: below)) :
    startsRegex behind (line ++ stop :: below) = startsRegex behind line := by
  have slash : (firstLine (line ++ stop :: below)).contains (.glyph '/') =
      (firstLine line).contains (.glyph '/') := by
    rw [Text.firstLine_append absent, Text.firstLine_of_not_mem absent, List.contains_eq_mem, List.contains_eq_mem]
    simp [last]
  have head : ((line ++ stop :: below).head?.all fun symbol => symbol.isBlank || symbol = .glyph '=') =
      line.head?.all fun symbol => symbol.isBlank || symbol = .glyph '=' := by
    cases line with
    | nil => simp [blank]
    | cons symbol rest => rfl
  unfold startsRegex
  rw [slash, head]

theorem startsCharacter_stop (behind line : Text) {stop : Symbol} (blank : stop.isBlank = true) (below : Text) :
    startsCharacter behind (line ++ stop :: below) = startsCharacter behind line := by
  unfold startsCharacter
  cases line with
  | nil => simp [blank]
  | cons character rest =>
      cases rest with
      | nil => simp [Symbol.isWord_of_isBlank blank]
      | cons next others => rfl

private theorem optional_head_stop (property : Symbol → Bool) {stop : Symbol} (fails : property stop = false)
    (line below : Text) :
    (line ++ stop :: below).head?.any property = line.head?.any property ∧
      (line ++ stop :: below).head?.filter property = line.head?.filter property ∧
      (if line.head?.any property then (line ++ stop :: below).drop 1 else line ++ stop :: below) =
        (if line.head?.any property then line.drop 1 else line) ++ stop :: below := by
  cases line with
  | nil => simp [fails]
  | cons first rest => cases holds : property first <;> simp [holds]

theorem announced?_stop {line : Text} (two : 2 ≤ line.length) {stop : Symbol} (blank : stop.isBlank = true)
    (below : Text) : Heredoc.announced? (line ++ stop :: below) = Heredoc.announced? line := by
  unfold Heredoc.announced?
  rw [List.drop_append_of_le_length two]
  generalize line.drop 2 = marked
  have mark : stop.isOneOf "~-" = false := Symbol.isOneOf_of_isBlank blank (by decide)
  have quote : isQuote stop = false := Symbol.isOneOf_of_isBlank blank (by decide)
  have start : stop.isNameStart = false := Symbol.isNameStart_of_isBlank blank
  obtain ⟨markAny, -, markDrop⟩ := optional_head_stop (fun symbol => symbol.isOneOf "~-") mark marked below
  simp only [filter_isSome, markAny, markDrop]
  generalize (marked.head?.any fun symbol => symbol.isOneOf "~-") = indented
  generalize (if indented = true then marked.drop 1 else marked) = quotable
  obtain ⟨quoteAny, quoteFilter, quoteDrop⟩ := optional_head_stop isQuote quote quotable below
  simp only [quoteAny, quoteFilter, quoteDrop]
  generalize isNamed : (if quotable.head?.any isQuote = true then quotable.drop 1 else quotable) = named
  obtain ⟨startAny, -, -⟩ := optional_head_stop Symbol.isNameStart start named below
  have terminator : (named ++ stop :: below).takeWhile Symbol.isWord = named.takeWhile Symbol.isWord :=
    takeWhile_append_stop named (stops_cons (Symbol.isWord_of_isBlank blank) below)
  have within : (named.takeWhile Symbol.isWord).length ≤ named.length := (List.takeWhile_prefix _).length_le
  have closing : ∀ symbol, isQuote symbol = true →
      (((named ++ stop :: below).drop (named.takeWhile Symbol.isWord).length).head? = some symbol ↔
        (named.drop (named.takeWhile Symbol.isWord).length).head? = some symbol) := by
    intro symbol isQuote
    rw [List.drop_append_of_le_length within]
    cases named.drop (named.takeWhile Symbol.isWord).length with
    | nil =>
        constructor
        · intro same
          cases same
          rw [quote] at isQuote
          cases isQuote
        · intro same
          cases same
    | cons next others => rfl
  rw [startAny, terminator]
  cases found : quotable.head?.filter isQuote with
  | none =>
      have none : quotable.head?.any isQuote = false := by
        rw [← filter_isSome, found]
        rfl
      simp only [none, Bool.false_and]
  | some symbol =>
      have isQuote := (Option.filter_eq_some_iff.mp found).2
      simp only [ne_eq, closing symbol isQuote]

/-- What starts at a place of a line does not depend on what stands after a blank that ends the line. -/
theorem Opening.read_stop (behind : Text) {line : Text} (nonempty : line ≠ []) (absent : newline ∉ line)
    {stop : Symbol} (blank : stop.isBlank = true) {below : Text} (last : .glyph '/' ∉ firstLine (stop :: below)) :
    Opening.read behind (line ++ stop :: below) = Opening.read behind line := by
  obtain ⟨symbol, after, rfl⟩ := List.exists_cons_of_ne_nil nonempty
  have noNewline : newline ∉ after := fun member => absent (List.mem_cons_of_mem _ member)
  have begins : Text.startsWith (symbol :: (after ++ stop :: below)) "=begin" =
      Text.startsWith (symbol :: after) "=begin" :=
    startsWith_stop (not_mem_of_isBlank blank (by decide)) (symbol :: after) below
  have double : (after ++ stop :: below).head? = some (.glyph '<') ↔ after.head? = some (.glyph '<') := by
    cases after with
    | nil =>
        constructor
        · intro same
          cases same
          cases blank
        · intro same
          cases same
    | cons next others => rfl
  rw [List.cons_append, Opening.read, Opening.read, begins, percentLiteral?_stop _ _ blank,
    startsRegex_stop behind noNewline blank last, startsCharacter_stop _ _ blank]
  by_cases announces : after.head? = some (.glyph '<')
  · obtain ⟨others, rfl⟩ := List.head?_eq_some_iff.mp announces
    have two : 2 ≤ (symbol :: .glyph '<' :: others).length := by simp
    have heredoc := announced?_stop two blank below
    rw [List.cons_append] at heredoc
    rw [heredoc]
    rfl
  · simp only [double, announces, decide_false, Bool.false_and, Bool.false_eq_true, if_false]

/-- What starts at a place of a line does not depend on what stands below the line. -/
theorem Opening.read_line (behind : Text) {line : Text} (nonempty : line ≠ []) (absent : newline ∉ line)
    (below : Text) : Opening.read behind (line ++ newline :: below) = Opening.read behind line :=
  Opening.read_stop behind nonempty absent (by decide) (fun member => by cases member)

/-! ### Whole lines ahead -/

/-- Whether whole lines settle what is shown at their start: it ends inside them, the same for all texts below, or it
reaches below them in all cases. -/
def Settled (above : Text) (image : Text → Text) : Prop :=
  (∃ shown, shown.length ≤ above.length ∧ ∀ below, image (above ++ below) = shown) ∨
    ∀ below, (∃ first ∈ below.head?, first ≠ newline) → above.length < (image (above ++ below)).length

theorem Settled.of_take {above front back : Text} {image : Text → Text} (split : above = front ++ back)
    (settled : Settled back image) :
    Settled above fun text => text.take front.length ++ image (text.drop front.length) := by
  subst split
  rcases settled with ⟨shown, within, same⟩ | beyond
  · left
    refine ⟨front ++ shown, ?_, fun below => ?_⟩
    · rw [List.length_append, List.length_append]
      omega
    · simp only [List.append_assoc, List.take_left, List.drop_left, same]
  · right
    intro below starts
    have longer := beyond below starts
    simp only [List.append_assoc, List.take_left, List.drop_left, List.length_append] at longer ⊢
    omega

/-- A move that starts in whole lines is settled in them: a backslash and a `#` are no newlines, so a symbol of the
lines follows them. -/
theorem Frame.move_append (frame : Frame) (outer : List Frame) {symbol : Symbol} {rest : Text}
    (whole : WholeLines (symbol :: rest)) (below : Text) :
    frame.move outer symbol (rest ++ below) = frame.move outer symbol rest := by
  cases frame with
  | literal delimiters depth =>
      cases rest with
      | nil =>
          obtain rfl : symbol = newline := whole symbol rfl
          simp [Frame.move, newline]
      | cons second others => simp [Frame.move]
  | embedded depth => rfl

theorem Frame.span_append (frame : Frame) (outer : List Frame) {above : Text} (whole : WholeLines above) :
    (∃ length, length < above.length ∧ ∀ below, frame.span outer (above ++ below) = length) ∨
      ∀ below, above.length ≤ frame.span outer (above ++ below) := by
  induction size : above.length using Nat.strong_induction_on generalizing frame outer above with
  | _ length ih =>
      cases above with
      | nil =>
          right
          intro below
          rw [← size]
          exact Nat.zero_le _
      | cons symbol rest =>
          cases moves : frame.move outer symbol rest with
          | none =>
              refine Or.inl ⟨0, by rw [← size]; exact Nat.succ_pos _, fun below => ?_⟩
              rw [List.cons_append, Frame.span_eq_move, frame.move_append outer whole, moves]
          | some moved =>
              obtain ⟨next, around, count⟩ := moved
              obtain ⟨positive, within⟩ := Frame.move_bounds moves
              have goesOn : ∀ below, frame.span outer (symbol :: rest ++ below) =
                  count + next.span around ((symbol :: rest).drop count ++ below) := by
                intro below
                rw [List.cons_append, Frame.span_eq_move, frame.move_append outer whole, moves,
                  ← List.drop_append_of_le_length within]
                rfl
              have left : ((symbol :: rest).drop count).length = length - count := by rw [List.length_drop, size]
              rcases ih _ (by omega) next around (whole.drop count) left with ⟨inner, inside, same⟩ | beyond
              · refine Or.inl ⟨count + inner, by omega, fun below => ?_⟩
                rw [goesOn, same]
              · right
                intro below
                have reached := beyond below
                rw [goesOn]
                omega

theorem Delimiters.image_settled (delimiters : Delimiters) {above : Text} (whole : WholeLines above) :
    Settled above delimiters.image := by
  rcases Frame.span_append (.literal delimiters 0) [] whole with ⟨length, within, same⟩ | beyond
  · left
    refine ⟨(above.take length).map hidden ++ (above.drop length).take 1, ?_, fun below => ?_⟩
    · simp only [List.length_append, List.length_map, List.length_take, List.length_drop]
      omega
    · have body : delimiters.bodyLength (above ++ below) = length := same below
      rw [image, body, List.take_append_of_le_length (Nat.le_of_lt within),
        List.drop_append_of_le_length (Nat.le_of_lt within),
        List.take_append_of_le_length (by rw [List.length_drop]; omega)]
  · right
    rintro below ⟨first, head, -⟩
    obtain ⟨others, rfl⟩ := List.head?_eq_some_iff.mp head
    have reached : above.length ≤ delimiters.bodyLength (above ++ first :: others) := beyond _
    simp only [image, List.length_append, List.length_map, List.length_take, List.length_drop, List.length_cons]
    omega

/-- Of a text that starts with whole lines, the first line with its newline lies in them. -/
private theorem take_line {above : Text} (whole : WholeLines above) (nonempty : above ≠ []) (below : Text) :
    (firstLine (above ++ below)).length < above.length ∧ firstLine (above ++ below) = firstLine above := by
  have member := whole.mem_newline nonempty
  refine ⟨?_, Text.firstLine_append_of_mem member below⟩
  rw [Text.firstLine_append_of_mem member]
  rcases Text.line_cases above with absent | ⟨line, rest, absent, rfl⟩
  · exact absurd member absent
  · rw [Text.firstLine_append_newline absent, List.length_append, List.length_cons]
    omega

private theorem drop_ne_nil {text : Text} {length : Nat} (within : length < text.length) : text.drop length ≠ [] := by
  intro nothing
  have size := congrArg List.length nothing
  rw [List.length_drop, List.length_nil] at size
  omega

theorem Heredoc.image_settled (heredoc : Heredoc) {above : Text} (whole : WholeLines above) :
    Settled above heredoc.image := by
  rcases linesWhile_append (fun line => !heredoc.endsAt line) whole with beyond | ⟨length, within, same⟩
  · right
    rintro below ⟨first, head, -⟩
    obtain ⟨others, rfl⟩ := List.head?_eq_some_iff.mp head
    have reached : above.length ≤ heredoc.bodyLength (above ++ first :: others) :=
      Nat.le.intro (beyond (first :: others)).symm
    simp only [image, List.length_append, List.length_map, List.length_take, List.length_drop, List.length_cons]
    omega
  · left
    have later := take_line (whole.drop length) (drop_ne_nil within)
    refine ⟨(above.take length).map hidden ++
      (above.drop length).take ((firstLine (above.drop length)).length + 1), ?_, fun below => ?_⟩
    · simp only [List.length_append, List.length_map, List.length_take, List.length_drop]
      omega
    · have body : heredoc.bodyLength (above ++ below) = length := same below
      obtain ⟨shorter, first⟩ := later below
      rw [first] at shorter
      simp only [image, body, List.take_append_of_le_length (Nat.le_of_lt within),
        List.drop_append_of_le_length (Nat.le_of_lt within), first]
      rw [List.take_append_of_le_length shorter]

theorem Heredoc.images_settled (heredocs : List Heredoc) {above : Text} (whole : WholeLines above) :
    Settled above (images heredocs) := by
  induction heredocs generalizing above with
  | nil => exact Or.inl ⟨[], Nat.zero_le _, fun below => rfl⟩
  | cons heredoc others ih =>
      rcases heredoc.image_settled whole with ⟨shown, within, same⟩ | beyond
      · rcases ih (whole.drop shown.length) with ⟨later, laterWithin, laterSame⟩ | laterBeyond
        · left
          refine ⟨shown ++ later, ?_, fun below => ?_⟩
          · rw [List.length_drop] at laterWithin
            rw [List.length_append]
            omega
          · rw [images, same, List.drop_append_of_le_length within, laterSame]
        · right
          intro below starts
          have longer := laterBeyond below starts
          rw [List.length_drop] at longer
          rw [images, same, List.drop_append_of_le_length within, List.length_append]
          omega
      · right
        intro below starts
        have longer := beyond below starts
        rw [images, List.length_append]
        omega

theorem blockComment_settled {above : Text} (whole : WholeLines above) :
    Settled above fun text => (text.take (blockCommentLength text)).map hidden := by
  rcases linesWhile_append (fun line => !endsBlockComment line) whole with beyond | ⟨length, within, same⟩
  · right
    rintro below ⟨first, head, inside⟩
    obtain ⟨others, rfl⟩ := List.head?_eq_some_iff.mp head
    have reached : linesWhile (fun line => !endsBlockComment line) (above ++ first :: others) =
      above.length + linesWhile (fun line => !endsBlockComment line) (first :: others) := beyond _
    have longer : above.length < blockCommentLength (above ++ first :: others) := by
      change above.length < linesWhile (fun line => !endsBlockComment line) (above ++ first :: others) +
        (firstLine ((above ++ first :: others).drop
          (linesWhile (fun line => !endsBlockComment line) (above ++ first :: others)))).length
      rw [reached, List.drop_length_add_append]
      rcases linesWhile_first (fun line => !endsBlockComment line) (first :: others) with ⟨none, -⟩ | covered
      · rw [none, List.drop_zero, firstLine, List.takeWhile_cons_of_pos (by simpa using inside), List.length_cons]
        omega
      · omega
    rw [List.length_map, List.length_take, List.length_append, List.length_cons]
    omega
  · left
    have later := take_line (whole.drop length) (drop_ne_nil within)
    refine ⟨(above.take (length + (firstLine (above.drop length)).length)).map hidden, ?_, fun below => ?_⟩
    · rw [List.length_map, List.length_take]
      omega
    · obtain ⟨shorter, first⟩ := later below
      rw [first, List.length_drop] at shorter
      have size : blockCommentLength (above ++ below) = length + (firstLine (above.drop length)).length := by
        change linesWhile (fun line => !endsBlockComment line) (above ++ below) +
          (firstLine ((above ++ below).drop
            (linesWhile (fun line => !endsBlockComment line) (above ++ below)))).length = _
        rw [same, List.drop_append_of_le_length (Nat.le_of_lt within), first]
      simp only [size]
      rw [List.take_append_of_le_length (by omega)]

private theorem settled_take {above : Text} {length : Nat} (within : length ≤ above.length) :
    Settled above fun text => text.take length :=
  Or.inl ⟨above.take length, by rw [List.length_take]; omega,
    fun below => List.take_append_of_le_length within⟩

private theorem settled_character {above : Text} (two : 2 ≤ above.length) :
    Settled above fun text => text.take 1 ++ ((text.drop 1).take 1).map hidden := by
  left
  refine ⟨above.take 1 ++ ((above.drop 1).take 1).map hidden, ?_, fun below => ?_⟩
  · simp only [List.length_append, List.length_map, List.length_take, List.length_drop]
    omega
  · simp only [List.take_append_of_le_length (show 1 ≤ above.length by omega),
      List.drop_append_of_le_length (show 1 ≤ above.length by omega)]
    rw [List.take_append_of_le_length (by rw [List.length_drop]; omega)]

theorem literal_length_le {behind after : Text} {symbol : Symbol} {delimiters : Delimiters} {length : Nat}
    (opens : Opens behind symbol after (.literal delimiters length)) : length ≤ (symbol :: after).length := by
  rw [List.length_cons]
  cases opens with
  | quoted => omega
  | percent same _ _ found =>
      rcases (percentLiteral?_shape found).2.2.2 with ⟨two, opening⟩ | ⟨_, -, three, opening⟩
      · have size := congrArg List.length opening
        rw [List.length_take, List.length_singleton] at size
        omega
      · have size := congrArg List.length opening
        rw [List.length_take, List.length_cons, List.length_singleton] at size
        omega
  | regex => omega

/-- What starts at the start of whole lines, and what is shown for it, is settled by these lines. -/
theorem Opening.image_settled (behind : Text) (pending : List Heredoc) {above : Text} (whole : WholeLines above)
    (nonempty : above ≠ []) :
    ∃ opening : Opening, (∀ below, Opening.read behind (above ++ below) = opening) ∧
      Settled above fun text => opening.image pending text := by
  rcases Text.line_cases above with absent | ⟨line, rest, absent, rfl⟩
  · exact absurd (whole.eq_nil absent) nonempty
  by_cases ended : line = []
  · subst ended
    refine ⟨.lineEnd, fun below => by rw [List.nil_append, List.cons_append, Opening.read, if_pos rfl], ?_⟩
    exact Settled.of_take (show newline :: rest = [newline] ++ rest from rfl)
      (Heredoc.images_settled pending (WholeLines.of_append (show WholeLines ([newline] ++ rest) from whole)))
  have size : (line ++ newline :: rest).length = line.length + (rest.length + 1) := by
    rw [List.length_append, List.length_cons]
  refine ⟨Opening.read behind line, fun below => ?_, ?_⟩
  · rw [List.append_assoc, List.cons_append, Opening.read_line behind ended absent]
  obtain ⟨symbol, after, rfl⟩ := List.exists_cons_of_ne_nil ended
  have opens := Opening.read_opens behind symbol after
  generalize Opening.read behind (symbol :: after) = opening at opens
  cases opening with
  | lineEnd =>
      cases opens with
      | lineEnd same => exact absurd (same ▸ List.mem_cons_self ..) absent
  | blockComment => exact blockComment_settled whole
  | comment =>
      left
      refine ⟨(symbol :: after).map hidden, ?_, fun below => ?_⟩
      · rw [List.length_map]
        omega
      · simp only [Opening.image]
        rw [List.append_assoc, @List.cons_append _ newline, Text.firstLine_append_newline absent, List.take_left]
  | literal delimiters length =>
      have within := literal_length_le opens
      have front : ((symbol :: after ++ newline :: rest).take length).length = length :=
        List.length_take_of_le (by omega)
      have settled := Settled.of_take (List.take_append_drop length _).symm
        (delimiters.image_settled (whole.drop length))
      rw [front] at settled
      exact settled
  | heredoc announced length =>
      cases opens with
      | heredoc same double _ _ found =>
          obtain ⟨lead, tail, others, textEq, rfl, -⟩ := Heredoc.announced?_shape found
          have textSize := congrArg List.length textEq
          rw [List.length_drop, @List.length_append _ _ others] at textSize
          obtain ⟨below, rfl⟩ := List.head?_eq_some_iff.mp double
          rw [List.length_cons, List.length_cons] at textSize size
          exact settled_take (by omega)
  | character =>
      have two : 2 ≤ (symbol :: after ++ newline :: rest).length := by
        rw [size, List.length_cons]
        omega
      exact settled_character two
  | code => exact settled_take (by rw [size]; omega)

/-! ### Steps that leave a line -/

theorem Opens.proper {behind after : Text} {symbol : Symbol} {delimiters : Delimiters} {length : Nat}
    (opens : Opens behind symbol after (.literal delimiters length)) : delimiters.Proper := by
  cases opens with
  | quoted quote => exact Delimiters.quoted_proper quote
  | percent same _ _ found =>
      obtain ⟨noWord, noBlank, closes, -⟩ := percentLiteral?_shape found
      exact Delimiters.proper_of_opening noWord noBlank closes
  | regex => exact Delimiters.slashes_proper

theorem Heredoc.images_last (heredocs : List Heredoc) (text : Text) :
    (∀ last ∈ (images heredocs text).getLast?, last = newline) ∨ (images heredocs text).length = text.length := by
  induction heredocs generalizing text with
  | nil =>
      left
      intro last member
      cases member
  | cons heredoc others ih =>
      obtain ⟨blanks, line, -, -, image | ⟨-, whole⟩⟩ := heredoc.image_shape text
      · rcases ih (text.drop (heredoc.image text).length) with newlines | whole
        · left
          intro last member
          rw [images, List.getLast?_append] at member
          cases found : (images others (text.drop (heredoc.image text).length)).getLast? with
          | none =>
              rw [found, Option.none_or, image, ← List.append_assoc, List.getLast?_concat] at member
              exact (Option.some.inj member).symm
          | some symbol =>
              rw [found, Option.some_or] at member
              exact newlines last (found.trans member)
        · right
          have within := heredoc.image_length_le text
          rw [images, List.length_append, whole, List.length_drop]
          omega
      · right
        have within := images_length_le others (text.drop (heredoc.image text).length)
        rw [whole, List.drop_length, List.length_nil] at within
        rw [images, List.length_append, whole, List.drop_length]
        omega

theorem Delimiters.image_last (delimiters : Delimiters) (text : Text) :
    (delimiters.image text).getLast? = some delimiters.closing ∨ (delimiters.image text).length = text.length := by
  have within := delimiters.bodyLength_le text
  rw [image]
  cases closes : text.drop (delimiters.bodyLength text) with
  | nil =>
      right
      have reached := congrArg List.length closes
      simp only [List.length_drop, List.length_nil, List.length_append, List.length_map, List.length_take] at reached ⊢
      omega
  | cons next others =>
      left
      have isClosing : next = delimiters.closing := delimiters.bodyLength_stops text next (by rw [closes]; rfl)
      rw [isClosing]
      exact List.getLast?_concat

namespace Blanking

theorem announcement_no_newline {symbol : Symbol} {after : Text} (same : symbol = .glyph '<')
    (double : after.head? = some (.glyph '<')) {announced : Heredoc} {length : Nat}
    (found : Heredoc.announced? (symbol :: after) = some (announced, length)) :
    newline ∉ (symbol :: after).take length := by
  obtain ⟨lead, tail, rest, textEq, rfl, marks, words⟩ := Heredoc.announced?_shape found
  obtain ⟨below, rfl⟩ := List.head?_eq_some_iff.mp double
  rw [List.drop_succ_cons, List.drop_succ_cons, List.drop_zero] at textEq
  rw [textEq, Nat.add_comm, List.take_succ_cons, List.take_succ_cons, List.take_left, same]
  simp only [List.mem_cons, List.mem_append] at marks ⊢
  rintro (inFirst | inSecond | (inLead | inTerminator) | inTail)
  · cases inFirst
  · cases inSecond
  · cases marks _ (Or.inl inLead)
  · cases words _ inTerminator
  · cases marks _ (Or.inr inTail)

theorem character_no_newline {behind after : Text} (starts : startsCharacter behind after = true)
    (pending : List Heredoc) : newline ∉ Opening.character.image pending (.glyph '?' :: after) := by
  cases after with
  | nil => cases starts
  | cons second others =>
      simp only [startsCharacter, Bool.and_eq_true, Bool.not_eq_true'] at starts
      have inside : second ≠ newline := by
        rintro rfl
        cases starts.1.1
      have isHidden : hidden second ≠ newline := mt (hidden_eq_newline_iff second).mp inside
      simp only [Opening.image, List.take_succ_cons, List.take_zero, List.drop_succ_cons, List.drop_zero, List.map_cons,
        List.map_nil, List.cons_append, List.nil_append, List.mem_cons, List.not_mem_nil, or_false, not_or]
      exact ⟨by decide, isHidden.symm⟩

theorem rest_of_covered {scan : Blanking} (covered : scan.ahead.length ≤ scan.image.length) : scan.step.rest = [] :=
  rest_of_nil (scan.step_moves.ahead.trans (List.drop_of_length_le covered))

/-- A step that goes on after a newline ends with a newline, with the delimiter that closes a literal, at the end of
a line or at the end of the text. -/
theorem image_after_newline {scan : Blanking} {front back : Text} (same : scan.image = front ++ newline :: back)
    (more : back ≠ []) :
    (∃ last ∈ back.getLast?, last = newline ∨ last.isAlphanumeric = false ∧ last.isBlank = false) ∨
      ∀ next ∈ scan.step.rest.head?, next = newline := by
  have atEnd : scan.ahead.length ≤ scan.image.length → ∀ next ∈ scan.step.rest.head?, next = newline := by
    intro covered next member
    rw [rest_of_covered covered] at member
    cases member
  have lastEq : scan.image.getLast? = back.getLast? := by
    rw [same, List.getLast?_append_cons, List.getLast?_cons_of_ne_nil more]
  have inside : newline ∈ scan.image := by simp [same]
  have long : 2 ≤ scan.image.length := by
    have positive := List.length_pos_iff.mpr more
    rw [same, List.length_append, List.length_cons]
    omega
  have started : scan.ahead ≠ [] := by
    intro ended
    have within := scan.image_length_le
    rw [ended, List.length_nil] at within
    omega
  obtain ⟨symbol, after, ahead⟩ := List.exists_cons_of_ne_nil started
  have opens := opens_of_ahead ahead
  generalize opening : scan.opening = kind at opens
  have image : scan.image = kind.image scan.pending (symbol :: after) := by
    rw [Blanking.image, opening, ahead]
  cases kind with
  | comment => exact Or.inr (comment_image (Or.inl opening)).2
  | blockComment => exact Or.inr (comment_image (Or.inr opening)).2
  | lineEnd =>
      have shown : scan.image = symbol :: Heredoc.images scan.pending after := image
      rcases Heredoc.images_last scan.pending after with newlines | whole
      · left
        obtain ⟨last, found⟩ := Option.ne_none_iff_exists'.mp (mt List.getLast?_eq_none_iff.mp more)
        refine ⟨last, found, Or.inl ?_⟩
        have bodies : Heredoc.images scan.pending after ≠ [] := by
          intro nothing
          rw [shown, nothing] at long
          simp at long
        rw [shown, List.getLast?_cons_of_ne_nil bodies, found] at lastEq
        exact newlines last lastEq
      · right
        apply atEnd
        rw [shown, ahead, List.length_cons, List.length_cons, whole]
  | literal delimiters length =>
      rw [Opening.image] at image
      rcases delimiters.image_last ((symbol :: after).drop length) with closes | whole
      · refine Or.inl ⟨delimiters.closing, ?_, Or.inr ?_⟩
        · rw [← lastEq, image, List.getLast?_append, closes]
          rfl
        · exact ⟨opens.proper.closing_alphanumeric, opens.proper.closing_blank⟩
      · right
        apply atEnd
        rw [image, ahead, List.length_append, whole, ← List.length_append, List.take_append_drop]
  | heredoc announced length =>
      cases opens with
      | heredoc isLess double _ _ found =>
          rw [image] at inside
          exact absurd inside (announcement_no_newline isLess double found)
  | character =>
      cases opens with
      | character isMark starts =>
          rw [image, isMark] at inside
          exact absurd inside (character_no_newline starts scan.pending)
  | code =>
      rw [image] at long
      simp [Opening.image] at long

end Blanking

/-! ### A fence behind -/

/-- Whether a text has a symbol that is neither a gap nor part of a word. -/
def Fenced (text : Text) : Prop :=
  ∃ symbol ∈ text, isGap symbol = false ∧ symbol.isWord = false

theorem Fenced.append {near : Text} (fenced : Fenced near) (front : Text) : Fenced (front ++ near) := by
  obtain ⟨symbol, member, apart⟩ := fenced
  exact ⟨symbol, List.mem_append_right front member, apart⟩

theorem Fenced.head? {near : Text} (fenced : Fenced near) (far : Text) : (near ++ far).head? = near.head? := by
  obtain ⟨symbol, member, -⟩ := fenced
  exact List.head?_append_of_ne_nil _ (List.ne_nil_of_mem member)

/-- A run that ends inside a text does not depend on what follows the text. -/
theorem takeWhile_append_of_mem {property : Symbol → Bool} {text : Text} {symbol : Symbol} (member : symbol ∈ text)
    (fails : property symbol = false) (rest : Text) :
    (text ++ rest).takeWhile property = text.takeWhile property := by
  obtain ⟨left, right, rfl⟩ := List.append_of_mem member
  rw [List.append_assoc, List.cons_append, takeWhile_append_stop left (stops_cons fails _),
    takeWhile_append_stop left (stops_cons fails _)]

theorem startsRegex_fenced {near : Text} (fenced : Fenced near) (far after : Text) :
    startsRegex (near ++ far) after = startsRegex near after := by
  have head := fenced.head? far
  obtain ⟨symbol, member, noGap, noWord⟩ := fenced
  obtain ⟨gaps, rest, rfl, -, inGaps, stops⟩ := exists_run isGap near
  have inRest : symbol ∈ rest := by
    rcases List.mem_append.mp member with inside | inside
    · rw [inGaps symbol inside] at noGap
      cases noGap
    · exact inside
  obtain ⟨previous, earlier, rfl⟩ := List.exists_cons_of_ne_nil (List.ne_nil_of_mem inRest)
  have dropped : ∀ tail : Text, (gaps ++ previous :: tail).dropWhile isGap = previous :: tail :=
    fun tail => dropWhile_run inGaps (fun next member => stops next member)
  have word : (previous :: (earlier ++ far)).takeWhile Symbol.isWord =
      (previous :: earlier).takeWhile Symbol.isWord :=
    takeWhile_append_of_mem inRest noWord far
  unfold startsRegex
  rw [head, List.append_assoc, List.cons_append, dropped, dropped]
  simp only [word]

/-- What starts at a place does not depend on what stands behind a fence. -/
theorem Opening.read_fenced {near : Text} (fenced : Fenced near) (far text : Text) :
    Opening.read (near ++ far) text = Opening.read near text := by
  have head := fenced.head? far
  have percent : ∀ after, percentLiteral? (near ++ far) after = percentLiteral? near after := by
    intro after
    rw [percentLiteral?, percentLiteral?, head]
  have character : ∀ after, startsCharacter (near ++ far) after = startsCharacter near after := by
    intro after
    rw [startsCharacter.eq_def, startsCharacter.eq_def, head]
  cases text with
  | nil => rfl
  | cons symbol after =>
      rw [Opening.read, Opening.read, head, percent, character, startsRegex_fenced fenced]

namespace Blanking

/-- Two scans with the same text ahead, the same here-documents pending and the same fence behind show the same. -/
theorem rest_fenced {first second : Blanking} {near far other : Text} (fenced : Fenced near)
    (firstBehind : first.behind = near ++ far) (secondBehind : second.behind = near ++ other)
    (ahead : first.ahead = second.ahead) (pending : first.pending = second.pending) : first.rest = second.rest := by
  induction size : first.ahead.length using Nat.strong_induction_on generalizing first second near with
  | _ length ih =>
      by_cases ended : first.ahead = []
      · rw [rest_of_nil ended, rest_of_nil (ahead ▸ ended)]
      have opening : first.opening = second.opening := by
        rw [Blanking.opening, Blanking.opening, firstBehind, secondBehind, Opening.read_fenced fenced,
          Opening.read_fenced fenced, ahead]
      have image : first.image = second.image := by
        rw [Blanking.image, Blanking.image, opening, ahead, pending]
      have positive := image_pos ended
      have shorter := first.step_ahead_length
      have within := first.image_length_le
      rw [rest_eq first, rest_eq second, ← image]
      congr 1
      refine ih first.step.ahead.length (by omega)
        (fenced.append (first.ahead.take first.image.length).reverse) ?_ ?_ ?_ ?_ rfl
      · rw [first.step_moves.behind, firstBehind, List.append_assoc]
      · rw [second.step_moves.behind, secondBehind, ← ahead, ← image, List.append_assoc]
      · rw [first.step_moves.ahead, second.step_moves.ahead, ahead, image]
      · rw [step_pending, step_pending, opening, pending]

end Blanking

end AccessorLint.Source
