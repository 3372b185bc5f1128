import Mathlib
import AccessorLint.Proofs.LineReading
import AccessorLint.Proofs.Padding
import AccessorLint.Proofs.Placement
set_option autoImplicit false

/-!
The heads of methods in padded code.

A head is read in padded code where it is read in the code itself, and says the same.  Parameters without parentheses
take the rest of the line, so the padding of that line belongs to the head: the heads may end on both sides of it.
-/

namespace AccessorLint.Source

open AccessorLint.Symbol (newline)
open AccessorLint.Text (firstLine)

namespace Padded

/-- What ends before a blank of a padded text stands in the text itself. -/
theorem of_right {front back left : Text} (padded : Padded left (front ++ back)) (absent : newline ∉ front)
    (visible : ∀ last ∈ front.getLast?, last.isBlank = false) : ∃ rest, left = front ++ rest ∧ Padded rest back := by
  induction front generalizing left with
  | nil => exact ⟨left, rfl, padded⟩
  | cons symbol others ih =>
      rw [List.mem_cons, not_or] at absent
      have later : others ≠ [] → ∀ last ∈ others.getLast?, last.isBlank = false := by
        intro more last member
        exact visible last (by rwa [List.getLast?_cons_of_ne_nil more])
      rw [List.cons_append] at padded
      by_cases ended : others = []
      · subst ended
        cases padded with
        | symbol _ rest => exact ⟨_, rfl, rest⟩
        | line => exact absurd rfl absent.1
        | pad fills =>
            have blank := isBlank_of_isFiller fills
            rw [visible symbol rfl] at blank
            cases blank
      · cases padded with
        | symbol _ rest =>
            obtain ⟨below, rfl, padded⟩ := ih rest absent.2 (later ended)
            exact ⟨below, rfl, padded⟩
        | line => exact absurd rfl absent.1
        | pad _ rest =>
            obtain ⟨below, leftEq, -⟩ := ih rest absent.2 (later ended)
            cases others with
            | nil => exact absurd rfl ended
            | cons first more =>
                obtain ⟨rfl, -⟩ := List.cons.inj leftEq
                exact absurd List.mem_cons_self absent.2

theorem drop_pads {pads left right : Text} (fills : ∀ symbol ∈ pads, isFiller symbol = true)
    (padded : Padded (newline :: left) (pads ++ right)) : Padded (newline :: left) right := by
  induction pads with
  | nil => exact padded
  | cons pad others ih =>
      rw [List.forall_mem_cons] at fills
      rw [List.cons_append] at padded
      cases padded with
      | symbol inside => exact absurd rfl inside
      | line => exact absurd rfl (ne_newline_of_isFiller fills.1)
      | pad _ later => exact ih fills.2 later

/-- After the gaps at the start, both texts go on with the same symbol, or both with what ends a line. -/
theorem gaps_cases {left right : Text} (padded : Padded left right) :
    (∃ gaps first rest other, (∀ symbol ∈ gaps, isGap symbol = true) ∧ isGap first = false ∧ first ≠ newline ∧
        left = gaps ++ first :: rest ∧ right = gaps ++ first :: other ∧ Padded rest other) ∨
      (∀ first ∈ (left.dropWhile isGap).head?, first = newline) ∧
        ∃ pads below, right.dropWhile isGap = pads ++ below ∧ (∀ symbol ∈ pads, isFiller symbol = true) ∧
          ∀ first ∈ below.head?, first = newline := by
  have atNewline : ∀ {text : Text}, ∀ first ∈ (newline :: text).head?, first = newline :=
    fun first member => (Option.some.inj member).symm
  have lineStops : isGap newline = false := by decide
  rcases padded.line_cases with ⟨absent, rfl⟩ | ⟨line, pads, below, lower, absent, fills, rfl, rfl, later⟩
  · obtain ⟨gaps, tail, rfl, -, inGaps, stops⟩ := exists_run isGap right
    cases tail with
    | nil =>
        right
        rw [List.append_nil, List.dropWhile_eq_nil_iff.mpr inGaps]
        exact ⟨by simp, [], [], rfl, by simp, by simp⟩
    | cons first rest =>
        rw [List.mem_append, List.mem_cons, not_or, not_or] at absent
        exact Or.inl ⟨gaps, first, rest, rest, inGaps, stops first rfl, Ne.symm absent.2.1, rfl, rfl,
          of_absent absent.2.2⟩
  · obtain ⟨gaps, tail, rfl, -, inGaps, stops⟩ := exists_run isGap line
    cases tail with
    | nil =>
        right
        rw [List.append_nil, dropWhile_run inGaps (stops_cons lineStops below), List.dropWhile_append_of_pos inGaps]
        refine ⟨atNewline, ?_⟩
        obtain ⟨gapPads, others, rfl, -, inGapPads, padStops⟩ := exists_run isGap pads
        refine ⟨others, newline :: lower, ?_, fun symbol member => fills symbol (by simp [member]), atNewline⟩
        rw [List.append_assoc]
        apply dropWhile_run inGapPads
        cases others with
        | nil => exact stops_cons lineStops lower
        | cons pad more => exact padStops
    | cons first rest =>
        rw [List.mem_append, List.mem_cons, not_or, not_or] at absent
        exact Or.inl ⟨gaps, first, _, _, inGaps, stops first rfl, Ne.symm absent.2.1, by simp, by simp,
          of_line absent.2.2 fills later⟩

theorem any_head? {left right : Text} (padded : Padded left right) {property : Symbol → Bool}
    (fails : ∀ symbol : Symbol, symbol.isBlank = true → property symbol = false) :
    right.head?.any property = left.head?.any property := by
  cases padded with
  | nil => rfl
  | symbol => rfl
  | line => rfl
  | pad isPad =>
      rw [List.head?_cons, List.head?_cons, Option.any_some, Option.any_some, fails _ (isBlank_of_isFiller isPad),
        fails newline (by decide)]

end Padded

/-! ### Names and receivers -/

theorem nameLength_padded {left right : Text} (padded : Padded left right) : nameLength right = nameLength left :=
  padded.congr fun line _ _ _ below blank _ => nameLength_stop line blank below

theorem nameLength_blank {text : Text} (blank : ∀ first ∈ text.head?, first.isBlank = true) : nameLength text = 0 := by
  cases text with
  | nil => rfl
  | cons stop below => exact nameLength_stop [] (blank stop rfl) below

theorem isBlank_head {pads below : Text} (fills : ∀ symbol ∈ pads, isFiller symbol = true)
    (ends : ∀ first ∈ below.head?, first = newline) : ∀ first ∈ (pads ++ below).head?, first.isBlank = true := by
  intro first member
  cases pads with
  | nil =>
      rw [ends first member]
      decide
  | cons pad others =>
      cases member
      exact isBlank_of_isFiller (fills first List.mem_cons_self)

/-- Padding is not read as a name, nor as the gaps before one. -/
theorem nameLength_after_gaps {left right : Text} (padded : Padded left right) :
    nameLength (right.dropWhile isGap) = nameLength (left.dropWhile isGap) := by
  rcases padded.gaps_cases with
    ⟨gaps, first, rest, other, inGaps, noGap, inside, rfl, rfl, later⟩ | ⟨ended, pads, below, rightEq, fills, ends⟩
  · rw [dropWhile_run inGaps (stops_cons noGap rest), dropWhile_run inGaps (stops_cons noGap other)]
    exact nameLength_padded (.symbol inside later)
  · rw [rightEq, nameLength_blank (isBlank_head fills ends), nameLength_blank]
    intro first member
    rw [ended first member]
    decide

namespace Header

/-- A text starts with no receiver and name if no name follows a receiver and its dot. -/
theorem unreceived_iff (text : Text) :
    Unreceived text ↔ ∀ path before rest, text = path ++ (before ++ .glyph '.' :: rest) → IsReceiver path →
      (∀ symbol ∈ before, isGap symbol = true) → nameLength (rest.dropWhile isGap) = 0 := by
  have dropped : ∀ path before after later : Text,
      (path ++ (before ++ .glyph '.' :: (after ++ later))).drop (path ++ (before ++ .glyph '.' :: after)).length =
        later := by
    intro path before after later
    have regrouped : path ++ (before ++ .glyph '.' :: (after ++ later)) =
        (path ++ (before ++ .glyph '.' :: after)) ++ later := by simp
    rw [regrouped, List.drop_left]
  constructor
  · rintro unreceived path before rest rfl isReceiver beforeGaps
    obtain ⟨after, later, rfl, -, afterGaps, stops⟩ := exists_run isGap rest
    have none := unreceived _ _ (receiver?_complete isReceiver beforeGaps afterGaps stops)
    rw [dropped] at none
    rw [dropWhile_run afterGaps stops]
    exact none
  · intro named length skipped found
    obtain ⟨path, before, after, later, rfl, isReceiver, beforeGaps, afterGaps, stops, -, rfl⟩ := receiver?_sound found
    have none := named path before (after ++ later) rfl isReceiver beforeGaps
    rw [dropWhile_run afterGaps stops] at none
    rw [dropped]
    exact none

theorem unreceived_padded {left right : Text} (padded : Padded left right) :
    Unreceived right ↔ Unreceived left := by
  have front : ∀ path before : Text, IsReceiver path → (∀ symbol ∈ before, isGap symbol = true) →
      newline ∉ path ++ (before ++ [.glyph '.']) := by
    intro path before isReceiver beforeGaps member
    rcases List.mem_append.mp member with inPath | inRest
    · cases isReceiver.parts newline inPath
    · rcases List.mem_append.mp inRest with inBefore | isDot
      · cases beforeGaps newline inBefore
      · cases List.mem_singleton.mp isDot
  have regrouped : ∀ path before rest : Text, path ++ (before ++ .glyph '.' :: rest) =
      (path ++ (before ++ [.glyph '.'])) ++ rest := by
    intro path before rest
    simp
  rw [unreceived_iff, unreceived_iff]
  constructor
  · rintro unreceived path before rest rfl isReceiver beforeGaps
    rw [regrouped] at padded
    obtain ⟨later, rfl, restPadded⟩ := padded.of_front (front path before isReceiver beforeGaps)
    rw [← nameLength_after_gaps restPadded]
    exact unreceived path before later (regrouped path before later).symm isReceiver beforeGaps
  · rintro unreceived path before rest rfl isReceiver beforeGaps
    rw [regrouped] at padded
    have dotVisible : ∀ last ∈ (path ++ (before ++ [.glyph '.']) : Text).getLast?, last.isBlank = false := by
      rw [← List.append_assoc, List.getLast?_concat]
      intro last member
      cases member
      decide
    obtain ⟨earlier, rfl, restPadded⟩ := padded.of_right (front path before isReceiver beforeGaps) dotVisible
    rw [nameLength_after_gaps restPadded]
    exact unreceived path before earlier (regrouped path before earlier).symm isReceiver beforeGaps

theorem isEndless_padded {left right : Text} (padded : Padded left right) : isEndless right = isEndless left := by
  have ended : ∀ {text : Text}, (∀ first ∈ (text.dropWhile isGap).head?, first.isBlank = true) →
      isEndless text = false := by
    intro text blank
    unfold isEndless
    cases rest : text.dropWhile isGap with
    | nil => rfl
    | cons first after =>
        have other : first ≠ .glyph '=' := Symbol.ne_of_property (blank first (by rw [rest]; rfl)) (by decide)
        simp [other]
  rcases padded.gaps_cases with
    ⟨gaps, first, rest, other, inGaps, noGap, inside, rfl, rfl, later⟩ | ⟨leftEnds, pads, below, rightEq, fills, ends⟩
  · have signs : (other.head?.any fun symbol => symbol.isOneOf "=~>") =
        rest.head?.any fun symbol => symbol.isOneOf "=~>" :=
      later.any_head? fun symbol blank => Symbol.isOneOf_of_isBlank blank (by decide)
    unfold isEndless
    rw [dropWhile_run inGaps (stops_cons noGap rest), dropWhile_run inGaps (stops_cons noGap other)]
    simp only [signs]
  · rw [ended, ended]
    · intro first member
      rw [leftEnds first member]
      decide
    · rw [rightEq]
      exact isBlank_head fills ends

end Header

/-! ### Parameters -/

theorem ArgumentCount.read_blank (count : ArgumentCount) {symbol : Symbol} (blank : symbol.isBlank = true) :
    count.read symbol = count := by
  have noComma : symbol ≠ .glyph ',' := Symbol.ne_of_property blank (by decide)
  have noOpening : symbol.isOneOf "([\x7b" = false := Symbol.isOneOf_of_isBlank blank (by decide)
  have noClosing : symbol.isOneOf ")]\x7d" = false := Symbol.isOneOf_of_isBlank blank (by decide)
  simp only [ArgumentCount.read, noComma, decide_false, Bool.false_and, Bool.false_eq_true, if_false, noOpening,
    noClosing, blank, Bool.not_true, Bool.or_false]

theorem foldl_read_padded (count : ArgumentCount) {left right : Text} (padded : Padded left right) :
    right.foldl ArgumentCount.read count = left.foldl ArgumentCount.read count := by
  induction padded generalizing count with
  | nil => rfl
  | symbol _ _ ih => exact ih _
  | line _ ih => exact ih _
  | pad fills _ ih => rw [List.foldl_cons, ArgumentCount.read_blank count (isBlank_of_isFiller fills), ih]

theorem countArguments_padded {left right : Text} (padded : Padded left right) :
    countArguments right = countArguments left := by
  rw [countArguments, countArguments, foldl_read_padded _ padded]

theorem countArguments_append_pads (text : Text) {pads : Text} (fills : ∀ symbol ∈ pads, isFiller symbol = true) :
    countArguments (text ++ pads) = countArguments text := by
  have nothing : ∀ count : ArgumentCount, pads.foldl ArgumentCount.read count = count := by
    intro count
    induction pads with
    | nil => rfl
    | cons pad others ih =>
        rw [List.forall_mem_cons] at fills
        rw [List.foldl_cons, ArgumentCount.read_blank count (isBlank_of_isFiller fills.1), ih fills.2]
  rw [countArguments, countArguments, List.foldl_append, nothing]

/-- A bracket is closed at the same place of padded code. -/
theorem closingSpan_padded {opening closing : Symbol} (noOpening : opening.isBlank = false)
    (noClosing : closing.isBlank = false) (depth : Int) {left right : Text} (padded : Padded left right) :
    PaddedAt left right (closingSpan opening closing depth left) (closingSpan opening closing depth right) := by
  have passed : ∀ {symbol : Symbol} (depth : Int) (text : Text), symbol.isBlank = true →
      closingSpan opening closing depth (symbol :: text) = closingSpan opening closing depth text + 1 := by
    intro symbol depth text blank
    rw [closingSpan, if_neg (Symbol.ne_of_property blank noOpening), if_neg (Symbol.ne_of_property blank noClosing),
      Nat.add_comm]
  induction padded generalizing depth with
  | nil => exact .zero .nil
  | @symbol symbol left right inside later ih =>
      rw [closingSpan, closingSpan]
      split_ifs with opens closes ends
      · rw [Nat.add_comm 1, Nat.add_comm 1]
        exact (ih _).symbol inside
      · exact .zero (.symbol inside later)
      · rw [Nat.add_comm 1, Nat.add_comm 1]
        exact (ih _).symbol inside
      · rw [Nat.add_comm 1, Nat.add_comm 1]
        exact (ih _).symbol inside
  | line _ ih =>
      rw [passed depth _ isBlank_newline, passed depth _ isBlank_newline]
      exact (ih depth).line
  | pad fills _ ih =>
      have cut := ih depth
      rw [passed depth _ isBlank_newline] at cut ⊢
      rw [passed depth _ (isBlank_of_isFiller fills)]
      exact cut.pad fills

/-- Whether two heads end at the same place of padded code, the second perhaps after the padding of the line. -/
def EndsAlike (left right : Text) (length size : Nat) : Prop :=
  ∃ (middle : Nat) (pads : Text), PaddedAt left right length middle ∧ size = middle + pads.length ∧
    right.drop middle = pads ++ right.drop size ∧ (∀ symbol ∈ pads, isFiller symbol = true) ∧
    (pads = [] ∨ (left.drop length).head? = some newline)

namespace EndsAlike

theorem of_cut {left right : Text} {length size : Nat} (cut : PaddedAt left right length size) :
    EndsAlike left right length size :=
  ⟨size, [], cut, rfl, rfl, by simp, Or.inl rfl⟩

theorem of_inside {left right : Text} {length size : Nat} (ends : EndsAlike left right length size)
    (inside : (left.drop length).head? ≠ some newline) : PaddedAt left right length size := by
  obtain ⟨middle, pads, cut, rfl, -, -, rfl | atLine⟩ := ends
  · exact cut
  · exact absurd atLine inside

theorem back {left right : Text} {length size : Nat} (ends : EndsAlike left right length size) :
    Padded (left.drop length) (right.drop size) := by
  obtain ⟨middle, pads, cut, -, dropped, fills, rfl | atLine⟩ := ends
  · rw [List.nil_append] at dropped
    rw [← dropped]
    exact cut.back
  · obtain ⟨below, leftEq⟩ := List.head?_eq_some_iff.mp atLine
    have padded := cut.back
    rw [leftEq, dropped] at padded
    rw [leftEq]
    exact padded.drop_pads fills

theorem shift {front left right : Text} {length size : Nat} (absent : newline ∉ front)
    (ends : EndsAlike left right length size) :
    EndsAlike (front ++ left) (front ++ right) (front.length + length) (front.length + size) := by
  obtain ⟨middle, pads, cut, rfl, dropped, fills, atLine⟩ := ends
  refine ⟨front.length + middle, pads, cut.shift absent, (Nat.add_assoc _ _ _).symm, ?_, fills, ?_⟩
  · rw [List.drop_length_add_append, List.drop_length_add_append, dropped]
  · rwa [List.drop_length_add_append]

end EndsAlike

/-- The parameters of a head without parentheses. -/
def bareLine (text : Text) : Text :=
  text.takeWhile fun symbol => !symbol.isOneOf "\n;"

/-- Whether the rest of a line holds no parameters. -/
def isBare (line : Text) : Bool :=
  (Text.trimLeft line).isEmpty || (Text.trimLeft line).head? = some (.glyph '=')

theorem isBare_append_pads (line : Text) {pads : Text} (fills : ∀ symbol ∈ pads, isFiller symbol = true) :
    isBare (line ++ pads) = isBare line := by
  have blank : ∀ symbol ∈ pads, symbol.isBlank = true := fun symbol member => isBlank_of_isFiller (fills symbol member)
  unfold isBare Text.trimLeft
  rw [List.dropWhile_append]
  cases rest : line.dropWhile Symbol.isBlank with
  | nil =>
      rw [List.isEmpty_nil, if_pos rfl, List.dropWhile_eq_nil_iff.mpr blank]
      rfl
  | cons first others => rfl

/-- The rest of a line is the same in padded code, up to padding at its end. -/
theorem bareLine_padded {left right : Text} (padded : Padded left right) :
    ∃ pads, bareLine right = bareLine left ++ pads ∧ (∀ symbol ∈ pads, isFiller symbol = true) ∧
      EndsAlike left right (bareLine left).length (bareLine right).length := by
  have ends : (!newline.isOneOf "\n;") = false := by decide
  have inLine : ∀ {text : Text}, newline ∉ bareLine text := by
    intro text member
    cases List.mem_takeWhile_imp member
  have same : bareLine right = bareLine left → ∃ pads, bareLine right = bareLine left ++ pads ∧
      (∀ symbol ∈ pads, isFiller symbol = true) ∧
        EndsAlike left right (bareLine left).length (bareLine right).length := by
    intro equal
    refine ⟨[], by rw [equal, List.append_nil], by simp, ?_⟩
    rw [equal]
    apply EndsAlike.of_cut
    apply PaddedAt.same padded
    have taken : left.take (bareLine left).length = bareLine left :=
      (List.prefix_iff_eq_take.mp (List.takeWhile_prefix _)).symm
    rw [taken]
    exact inLine
  rcases padded.line_cases with ⟨-, rfl⟩ | ⟨line, pads, below, lower, absent, fills, rfl, rfl, later⟩
  · exact same rfl
  obtain ⟨run, rest, rfl, -, inRun, stops⟩ := exists_run (fun symbol => !symbol.isOneOf "\n;") line
  cases rest with
  | cons first others =>
      apply same
      have semicolon : ∀ tail : Text, bareLine ((run ++ first :: others) ++ tail) = run := by
        intro tail
        rw [List.append_assoc]
        exact takeWhile_run inRun stops
      rw [semicolon, semicolon]
  | nil =>
      rw [List.append_nil] at absent ⊢
      have inPads : ∀ symbol ∈ run ++ pads, (!symbol.isOneOf "\n;") = true := by
        intro symbol member
        rcases List.mem_append.mp member with inside | isPad
        · exact inRun symbol inside
        · have filler := fills symbol isPad
          have noSemicolon : symbol ≠ .glyph ';' := by
            rintro rfl
            cases filler
          have noNewline : symbol ≠ .glyph '\n' := ne_newline_of_isFiller filler
          simp [Symbol.isOneOf, noSemicolon, noNewline]
      have leftLine : bareLine (run ++ newline :: below) = run := takeWhile_run inRun (stops_cons ends below)
      have rightLine : bareLine (run ++ (pads ++ newline :: lower)) = run ++ pads := by
        rw [← List.append_assoc]
        exact takeWhile_run inPads (stops_cons ends lower)
      refine ⟨pads, by rw [leftLine, rightLine], fills, run.length, pads, ?_, ?_, ?_, fills, Or.inr ?_⟩
      · rw [leftLine]
        exact .of_append (.of_absent absent) (.add_pads fills (.line later))
      · rw [rightLine, List.length_append]
      · rw [rightLine, List.drop_left, ← List.append_assoc, List.drop_left]
      · rw [leftLine, List.drop_left]
        rfl

namespace Header

theorem parametersAt_gaps {gaps rest : Text} (inGaps : ∀ symbol ∈ gaps, isGap symbol = true)
    (stops : ∀ next ∈ rest.head?, isGap next = false) :
    parametersAt (gaps ++ rest) 0 =
      if rest.head? = some (.glyph '(') then
        ((rest.take (closingSpan (.glyph '(') (.glyph ')') 0 rest)).drop 1,
          gaps.length + (rest.take (closingSpan (.glyph '(') (.glyph ')') 0 rest + 1)).length)
      else if isBare (bareLine rest) then ([], 0)
      else (bareLine rest, gaps.length + (bareLine rest).length) := by
  simp only [parametersAt, List.drop_zero, Nat.zero_add, takeWhile_run inGaps stops, List.drop_left]
  rfl

theorem parametersAt_of_line_end {text : Text} (ends : ∃ pads below, text.dropWhile isGap = pads ++ below ∧
      (∀ symbol ∈ pads, isFiller symbol = true) ∧ ∀ first ∈ below.head?, first = newline) :
    parametersAt text 0 = ([], 0) := by
  obtain ⟨pads, below, rest, fills, ends⟩ := ends
  obtain ⟨gaps, tail, rfl, -, inGaps, stops⟩ := exists_run isGap text
  rw [dropWhile_run inGaps stops] at rest
  subst rest
  have blank := isBlank_head fills ends
  have noParenthesis : (pads ++ below).head? ≠ some (.glyph '(') := by
    intro opens
    cases blank _ opens
  have bare : isBare (bareLine (pads ++ below)) = true := by
    have allBlank : ∀ symbol ∈ bareLine (pads ++ below), symbol.isBlank = true := by
      intro symbol member
      have inPads : symbol ∈ pads := by
        cases below with
        | nil =>
            rw [List.append_nil] at member
            exact (List.takeWhile_prefix _).subset member
        | cons first others =>
            rw [ends first rfl, bareLine, takeWhile_append_stop pads (stops_cons (by decide) others)] at member
            exact (List.takeWhile_prefix _).subset member
      exact isBlank_of_isFiller (fills symbol inPads)
    rw [isBare, Text.trimLeft, List.dropWhile_eq_nil_iff.mpr allBlank]
    rfl
  rw [parametersAt_gaps inGaps stops, if_neg noParenthesis, if_pos bare]

/-- A cut after the bracket that closes the first one. -/
theorem closing_padded {left right : Text} (padded : Padded left right) :
    PaddedAt left right (closingSpan (.glyph '(') (.glyph ')') 0 left + 1)
      (closingSpan (.glyph '(') (.glyph ')') 0 right + 1) := by
  have cut := closingSpan_padded (show (Symbol.glyph '(').isBlank = false by decide)
    (show (Symbol.glyph ')').isBlank = false by decide) 0 padded
  refine cut.add (.same cut.back ?_)
  rcases closingSpan_cases (.glyph '(') (.glyph ')') 0 left with ⟨front, back, leftEq, found⟩ | ended
  · rw [found, leftEq, List.drop_left, List.take_succ_cons, List.take_zero, List.mem_singleton]
    decide
  · rw [ended, List.drop_length]
    exact List.not_mem_nil

/-- The parameters of a head are counted alike in padded code, and the heads end alike. -/
theorem parametersAt_padded {left right : Text} (padded : Padded left right) :
    countArguments (parametersAt right 0).1 = countArguments (parametersAt left 0).1 ∧
      EndsAlike left right (parametersAt left 0).2 (parametersAt right 0).2 := by
  rcases padded.gaps_cases with
    ⟨gaps, first, rest, other, inGaps, noGap, inside, rfl, rfl, later⟩ | ⟨leftEnds, rightEnds⟩
  · have noNewline : newline ∉ gaps := by
      intro member
      cases inGaps newline member
    have padded : Padded (first :: rest) (first :: other) := .symbol inside later
    rw [parametersAt_gaps inGaps (stops_cons noGap rest), parametersAt_gaps inGaps (stops_cons noGap other)]
    by_cases opens : first = .glyph '('
    · subst opens
      rw [List.head?_cons, List.head?_cons, if_pos rfl, if_pos rfl]
      refine ⟨countArguments_padded ?_, .shift noNewline (.of_cut (closing_padded padded).taken)⟩
      have inner := (closingSpan_padded (show (Symbol.glyph '(').isBlank = false by decide)
        (show (Symbol.glyph ')').isBlank = false by decide) (0 + 1) later).front
      rw [closingSpan, if_pos rfl, closingSpan, if_pos rfl, Nat.add_comm 1, Nat.add_comm 1, List.take_succ_cons,
        List.take_succ_cons]
      exact inner
    · have noParenthesis : ∀ {tail : Text}, (first :: tail).head? ≠ some (.glyph '(') :=
        fun same => opens (Option.some.inj same)
      rw [if_neg noParenthesis, if_neg noParenthesis]
      obtain ⟨pads, lineEq, fills, ends⟩ := bareLine_padded padded
      have bare : isBare (bareLine (first :: other)) = isBare (bareLine (first :: rest)) := by
        rw [lineEq, isBare_append_pads _ fills]
      rw [bare]
      split_ifs
      · exact ⟨rfl, .of_cut (.zero ((Padded.of_absent noNewline).append padded))⟩
      · exact ⟨by rw [lineEq, countArguments_append_pads _ fills], .shift noNewline ends⟩
  · have leftLine : parametersAt left 0 = ([], 0) :=
      parametersAt_of_line_end ⟨[], left.dropWhile isGap, rfl, by simp, leftEnds⟩
    rw [leftLine, parametersAt_of_line_end rightEnds]
    exact ⟨rfl, .of_cut (.zero padded)⟩

/-! ### Heads -/

/-- Whether a head says the same in padded code as in the code itself, and ends at the same place. -/
structure Alike (left right : Text) (header other : Header) : Prop where
  name : other.name = header.name
  nameBegin : other.nameBegin = header.nameBegin
  receiver : other.receiver = header.receiver
  argumentCount : countArguments other.parameters = countArguments header.parameters
  endless : other.endless = header.endless
  onLine : newline ∉ left.take header.nameBegin
  inCode : header.nameBegin ≤ left.length ∧ other.nameBegin ≤ right.length
  ends : EndsAlike left right header.headerEnd other.headerEnd

/-- What is written up to the name of a head stands on one line. -/
theorem newline_not_mem_title {receiver : Option Text} {lead name rest : Text} (isLead : Lead receiver lead)
    (named : nameLength (name ++ rest) = name.length) : newline ∉ ("def" ++ (lead ++ name) : Text) := by
  simp only [List.mem_append, not_or]
  exact ⟨by decide, isLead.not_mem (by decide) (by decide) (by decide), newline_not_mem_name named⟩

theorem written_alike {receiver : Option Text} {lead name rest other : Text} (isLead : Lead receiver lead)
    (named : nameLength (name ++ rest) = name.length) (padded : Padded rest other) :
    Alike ("def" ++ (lead ++ (name ++ rest))) ("def" ++ (lead ++ (name ++ other))) (written receiver lead name rest)
      (written receiver lead name other) := by
  have title := newline_not_mem_title isLead named
  have regrouped : ∀ tail : Text, ("def" ++ (lead ++ (name ++ tail)) : Text) = ("def" ++ (lead ++ name)) ++ tail := by
    intro tail
    simp
  have size : ("def" ++ (lead ++ name) : Text).length = 3 + lead.length + name.length := by
    rw [List.length_append, List.length_append, Nat.add_assoc]
    rfl
  obtain ⟨argumentCount, ends⟩ := parametersAt_padded padded
  have within : 3 + lead.length ≤ ("def" ++ (lead ++ name) : Text).length := by omega
  have inside : ∀ tail : Text, 3 + lead.length ≤ ("def" ++ (lead ++ (name ++ tail)) : Text).length := by
    intro tail
    rw [regrouped, List.length_append]
    omega
  refine ⟨rfl, rfl, rfl, argumentCount, isEndless_padded ends.back, ?_, ⟨inside rest, inside other⟩, ?_⟩
  · change newline ∉ ("def" ++ (lead ++ (name ++ rest)) : Text).take (3 + lead.length)
    rw [regrouped, List.take_append_of_le_length within]
    exact fun member => title (List.mem_of_mem_take member)
  · change EndsAlike _ _ (3 + lead.length + name.length + (parametersAt rest 0).2)
      (3 + lead.length + name.length + (parametersAt other 0).2)
    rw [regrouped, regrouped, ← size]
    exact ends.shift title

/-- A head is read in padded code where it is read in the code itself. -/
theorem read?_padded {left right : Text} (padded : Padded left right) :
    read? left = none ∧ read? right = none ∨
      ∃ header other, read? left = some header ∧ read? right = some other ∧ Alike left right header other := by
  have both : ∀ {receiver : Option Text} {lead name rest other : Text}, Lead receiver lead → name ≠ [] →
      nameLength (name ++ rest) = name.length → (receiver = none → Unreceived (name ++ rest)) → Padded rest other →
      left = ("def" ++ (lead ++ name)) ++ rest → right = ("def" ++ (lead ++ name)) ++ other →
      ∃ header other, read? left = some header ∧ read? right = some other ∧ Alike left right header other := by
    intro receiver lead name rest other isLead nonempty named unreceived restPadded leftEq rightEq
    have whole : Padded (name ++ rest) (name ++ other) :=
      (Padded.of_absent (newline_not_mem_name named)).append restPadded
    have otherNamed : nameLength (name ++ other) = name.length := by rw [nameLength_padded whole, named]
    rw [List.append_assoc, List.append_assoc] at leftEq rightEq
    rw [leftEq, rightEq]
    exact ⟨_, _, read?_complete isLead nonempty named unreceived,
      read?_complete isLead nonempty otherNamed fun plain => (unreceived_padded whole).mpr (unreceived plain),
      written_alike isLead named restPadded⟩
  cases found : read? left with
  | some header =>
      obtain ⟨lead, name, rest, leftEq, isLead, nonempty, named, -, unreceived⟩ := read?_sound found
      have regrouped : left = ("def" ++ (lead ++ name)) ++ rest := by
        rw [leftEq]
        simp
      rw [regrouped] at padded
      obtain ⟨other, rightEq, restPadded⟩ := padded.of_front (newline_not_mem_title isLead named)
      rw [← found]
      exact Or.inr (both isLead nonempty named unreceived restPadded regrouped rightEq)
  | none =>
      cases otherFound : read? right with
      | none => exact Or.inl ⟨rfl, rfl⟩
      | some other =>
          obtain ⟨lead, name, rest, rightEq, isLead, nonempty, named, -, unreceived⟩ := read?_sound otherFound
          have regrouped : right = ("def" ++ (lead ++ name)) ++ rest := by
            rw [rightEq]
            simp
          have visible : ∀ last ∈ ("def" ++ (lead ++ name) : Text).getLast?, last.isBlank = false := by
            intro last member
            rw [← List.append_assoc, List.getLast?_append_of_ne_nil _ nonempty] at member
            exact name_visible nonempty named last (List.mem_of_getLast? member)
          rw [regrouped] at padded
          obtain ⟨earlier, leftEq, restPadded⟩ := padded.of_right (newline_not_mem_title isLead named) visible
          have whole : Padded (name ++ earlier) (name ++ rest) :=
            (Padded.of_absent (newline_not_mem_name named)).append restPadded
          obtain ⟨header, _, read, -⟩ := both isLead nonempty (by rw [← nameLength_padded whole, named])
            (fun plain => (unreceived_padded whole).mp (unreceived plain)) restPadded leftEq regrouped
          rw [found] at read
          cases read

theorem endless_eq {text : Text} {header : Header} (found : read? text = some header) :
    header.endless = isEndless (text.drop header.headerEnd) := by
  obtain ⟨lead, name, rest, rfl, -, -, -, headerEq, -⟩ := read?_sound found
  have dropped : ("def" ++ (lead ++ (name ++ rest)) : Text).drop header.headerEnd =
      rest.drop (parametersAt rest 0).2 := by
    rw [headerEq]
    change List.drop (3 + lead.length + name.length + (parametersAt rest 0).2) _ = _
    rw [← List.drop_drop, ← List.drop_drop, drop_lead, List.drop_left]
  rw [dropped, headerEq]
  rfl

end Header

end AccessorLint.Source
