import Mathlib
import AccessorLint.Source.Blanking
import AccessorLint.Proofs.Lines
import AccessorLint.Proofs.Symbols
set_option autoImplicit false

/-!
Literals, here-documents and block comments: how their openings are written, and where their bodies stop.

The body of a literal stops at the end of the text or before the delimiter that closes it.  The bodies of
here-documents and block comments are made of whole lines, so whether such a body ends inside some lines does not
depend on the lines below.
-/

namespace AccessorLint.Source

open AccessorLint.Symbol (newline)
open AccessorLint.Text (WholeLines firstLine)

/-! ### Openings -/

/-- The delimiters of a percent literal, and where they stand. -/
theorem percentLiteral?_shape {behind after : Text} {delimiters : Delimiters} {length : Nat}
    (found : percentLiteral? behind after = some (delimiters, length)) :
    delimiters.opening.isAlphanumeric = false ∧ delimiters.opening.isBlank = false ∧
      delimiters.closing = closingOf delimiters.opening ∧
      ((length = 2 ∧ after.take 1 = [delimiters.opening]) ∨
        ∃ kind : Symbol, kind.isOneOf "qQwWiIrsx" = true ∧ length = 3 ∧
          after.take 2 = [kind, delimiters.opening]) := by
  unfold percentLiteral? at found
  split at found
  · cases found
  · cases after with
    | nil => simp at found
    | cons first rest =>
        by_cases kind : first.isOneOf "qQwWiIrsx" = true
        · cases rest with
          | nil => simp [kind] at found
          | cons opening body =>
              simp only [List.head?_cons, Option.filter_some, kind, if_true, Option.isSome_some, List.drop_one,
                List.tail_cons, Option.ite_none_left_eq_some, Bool.or_eq_true, decide_eq_true_eq, not_or,
                Bool.not_eq_true] at found
              obtain ⟨⟨⟨noWord, noBlank⟩, -⟩, same⟩ := found
              cases same
              exact ⟨noWord, noBlank, rfl, Or.inr ⟨first, kind, rfl, rfl⟩⟩
        · simp only [List.head?_cons, Option.filter_some, kind, Option.ite_none_left_eq_some, Bool.or_eq_true,
            decide_eq_true_eq, not_or, Bool.not_eq_true, if_false, Bool.false_eq_true, Option.isSome_none] at found
          obtain ⟨⟨⟨noWord, noBlank⟩, -⟩, same⟩ := found
          cases same
          exact ⟨noWord, noBlank, rfl, Or.inl ⟨rfl, rfl⟩⟩

/-- Neither delimiter of a literal is blank or alphanumeric. -/
structure Delimiters.Proper (delimiters : Delimiters) : Prop where
  opening_alphanumeric : delimiters.opening.isAlphanumeric = false
  opening_blank : delimiters.opening.isBlank = false
  closing_alphanumeric : delimiters.closing.isAlphanumeric = false
  closing_blank : delimiters.closing.isBlank = false

theorem Delimiters.quoted_proper {quote : Symbol} (isQuote : isQuote quote = true) : (quoted quote).Proper := by
  rcases (isQuote_iff quote).mp isQuote with rfl | rfl | rfl <;> constructor <;> decide

theorem Delimiters.slashes_proper : slashes.Proper := by
  constructor <;> decide

theorem Delimiters.proper_of_opening {delimiters : Delimiters}
    (noWord : delimiters.opening.isAlphanumeric = false) (noBlank : delimiters.opening.isBlank = false)
    (closes : delimiters.closing = closingOf delimiters.opening) : delimiters.Proper := by
  refine ⟨noWord, noBlank, ?_, ?_⟩
  · rw [closes, closingOf]
    split_ifs <;> first | decide | exact noWord
  · rw [closes, closingOf]
    split_ifs <;> first | decide | exact noBlank

private theorem optional_head_split (text : Text) (property : Symbol → Bool) :
    ∃ first : Text, text = first ++ (if text.head?.any property then text.drop 1 else text) ∧
      first.length = (if text.head?.any property then 1 else 0) ∧ ∀ symbol ∈ first, property symbol = true := by
  cases text with
  | nil => exact ⟨[], rfl, rfl, fun _ member => by cases member⟩
  | cons symbol rest =>
      by_cases holds : property symbol = true
      · exact ⟨[symbol], by simp [holds]⟩
      · exact ⟨[], by simp [holds]⟩

theorem filter_isSome (symbol : Option Symbol) (property : Symbol → Bool) :
    (symbol.filter property).isSome = symbol.any property := by
  cases symbol with
  | none => rfl
  | some symbol => cases holds : property symbol <;> simp [holds]

/-- The announcement of a here-document: marks, the terminator, which is a word, and perhaps another mark. -/
theorem Heredoc.announced?_shape {text : Text} {announced : Heredoc} {length : Nat}
    (found : announced? text = some (announced, length)) :
    ∃ lead tail rest : Text, text.drop 2 = lead ++ announced.terminator ++ tail ++ rest ∧
      length = 2 + (lead ++ announced.terminator ++ tail).length ∧
      (∀ symbol ∈ lead ++ tail, symbol.isOneOf "~-\"'`" = true) ∧
      ∀ symbol ∈ announced.terminator, symbol.isWord = true := by
  unfold announced? at found
  generalize text.drop 2 = marked at found ⊢
  simp only [filter_isSome] at found
  obtain ⟨mark, markedEq, markLength, marks⟩ := optional_head_split marked fun symbol => symbol.isOneOf "~-"
  generalize (marked.head?.any fun symbol => symbol.isOneOf "~-") = indented at found markedEq markLength
  generalize (if indented = true then marked.drop 1 else marked) = quotable at found markedEq
  obtain ⟨quote, quotableEq, quoteLength, quotes⟩ := optional_head_split quotable isQuote
  generalize quotable.head?.any isQuote = quoted at found quotableEq quoteLength
  generalize (if quoted = true then quotable.drop 1 else quotable) = named at found quotableEq
  have namedEq : named = named.takeWhile Symbol.isWord ++ named.drop (named.takeWhile Symbol.isWord).length := by
    conv_lhs => rw [← List.take_append_drop (named.takeWhile Symbol.isWord).length named]
    congr 1
    exact (List.prefix_iff_eq_take.mp (List.takeWhile_prefix _)).symm
  have words : ∀ symbol ∈ named.takeWhile Symbol.isWord, symbol.isWord = true :=
    fun symbol member => List.mem_takeWhile_imp member
  have isMark : ∀ symbol ∈ mark ++ quote, symbol.isOneOf "~-\"'`" = true := by
    intro symbol member
    rcases List.mem_append.mp member with inMark | inQuote
    · have := marks symbol inMark
      simp [Symbol.isOneOf] at this ⊢
      tauto
    · rcases (isQuote_iff symbol).mp (quotes symbol inQuote) with rfl | rfl | rfl <;> decide
  split at found
  · cases found
  split at found
  · cases found
  rename_i closed
  split at found
  · cases found
    cases quoted with
    | false =>
        refine ⟨mark ++ quote, [], named.drop (named.takeWhile Symbol.isWord).length, ?_, ?_, ?_, words⟩
        · rw [markedEq, quotableEq, List.append_nil, List.append_assoc, ← namedEq, List.append_assoc]
        · simp only [markLength, quoteLength, List.append_nil, List.length_append, Bool.false_eq_true, if_false]
          omega
        · rwa [List.append_nil]
    | true =>
        obtain ⟨symbol, rfl⟩ := List.length_eq_one_iff.mp quoteLength
        have head : (named.drop (named.takeWhile Symbol.isWord).length).head? = some symbol := by
          have isQuote := quotes symbol (List.mem_singleton_self symbol)
          rw [quotableEq] at closed
          simpa [Option.filter_some, isQuote] using closed
        obtain ⟨rest, restEq⟩ := List.head?_eq_some_iff.mp head
        refine ⟨mark ++ [symbol], [symbol], rest, ?_, ?_, ?_, words⟩
        · rw [markedEq, quotableEq]
          conv_lhs => rw [namedEq, restEq]
          simp
        · simp only [markLength, List.length_append, List.length_singleton, if_true]
          omega
        · intro other member
          apply isMark
          simp only [List.mem_append, List.mem_singleton] at member ⊢
          tauto
  · cases found

/-! ### Bodies of literals -/

def Frame.closing : Frame → Symbol
  | .literal delimiters _ => delimiters.closing
  | .embedded _ => .glyph '\x7d'

/-- The symbol that closes the outermost of the frames around one that a symbol closes. -/
def Frame.lastClosing : Symbol → List Frame → Symbol
  | closing, [] => closing
  | _, around :: others => lastClosing around.closing others

/-- The machine stops at the end of the text or before the symbol that closes the outermost frame. -/
theorem Frame.span_stops (frame : Frame) (outer : List Frame) (text : Text) :
    ∀ next ∈ (text.drop (frame.span outer text)).head?, next = lastClosing frame.closing outer := by
  fun_induction Frame.span frame outer text <;>
    simp_all [Nat.add_comm 1, Nat.add_comm 2, Frame.closing, Frame.lastClosing]

theorem Frame.span_le (frame : Frame) (outer : List Frame) (text : Text) :
    frame.span outer text ≤ text.length := by
  fun_induction Frame.span frame outer text <;> simp_all <;> omega

theorem Delimiters.bodyLength_stops (delimiters : Delimiters) (text : Text) :
    ∀ next ∈ (text.drop (delimiters.bodyLength text)).head?, next = delimiters.closing :=
  Frame.span_stops (.literal delimiters 0) [] text

theorem Delimiters.bodyLength_le (delimiters : Delimiters) (text : Text) :
    delimiters.bodyLength text ≤ text.length :=
  Frame.span_le (.literal delimiters 0) [] text

/-! ### Bodies made of lines -/

/-- The number of symbols of the first lines that have a property, each with its newline. -/
def linesWhile (property : Text → Bool) (text : Text) : Nat :=
  Heredoc.stretch (text.lines.takeWhile property)

theorem linesWhile_last (property : Text → Bool) {text : Text} (absent : newline ∉ text) :
    linesWhile property text = if property text then text.length + 1 else 0 := by
  rw [linesWhile, Text.lines_of_not_mem absent]
  cases holds : property text
  · rw [List.takeWhile_cons_of_neg (by simp [holds])]
    rfl
  · rw [List.takeWhile_cons_of_pos holds]
    rfl

theorem linesWhile_line (property : Text → Bool) {line : Text} (absent : newline ∉ line) (rest : Text) :
    linesWhile property (line ++ newline :: rest) =
      if property line then line.length + 1 + linesWhile property rest else 0 := by
  rw [linesWhile, Text.lines_append_newline, Text.lines_of_not_mem absent, List.singleton_append]
  cases holds : property line
  · rw [List.takeWhile_cons_of_neg (by simp [holds])]
    rfl
  · rw [List.takeWhile_cons_of_pos holds]
    rfl

/-- The lines stop before a line without the property, unless they take up the whole text. -/
theorem linesWhile_stops (property : Text → Bool) (text : Text) (within : linesWhile property text ≤ text.length) :
    property (firstLine (text.drop (linesWhile property text))) = false := by
  induction text using Text.line_induction with
  | last line absent =>
      rw [linesWhile_last property absent] at within ⊢
      cases holds : property line
      · rw [if_neg (by simp), List.drop_zero, Text.firstLine_of_not_mem absent]
        exact holds
      · rw [holds, if_pos rfl] at within
        omega
  | line line rest absent ih =>
      rw [linesWhile_line property absent] at within ⊢
      cases holds : property line
      · rw [if_neg (by simp), List.drop_zero, Text.firstLine_append_newline absent]
        exact holds
      · rw [holds, if_pos rfl] at within
        rw [if_pos rfl]
        have dropped : (line ++ newline :: rest).drop (line.length + 1 + linesWhile property rest) =
            rest.drop (linesWhile property rest) := by
          rw [← List.drop_drop, List.drop_append, List.drop_of_length_le (Nat.le_succ _), Nat.add_sub_cancel_left]
          rfl
        rw [dropped]
        apply ih
        rw [List.length_append, List.length_cons] at within
        omega

/-- Of the lines of a text, those below some whole lines count only if all of these have the property. -/
theorem linesWhile_append (property : Text → Bool) {above : Text} (whole : WholeLines above) :
    (∀ below, linesWhile property (above ++ below) = above.length + linesWhile property below) ∨
      ∃ length, length < above.length ∧ ∀ below, linesWhile property (above ++ below) = length := by
  induction above using Text.line_induction with
  | last line absent =>
      obtain rfl := whole.eq_nil absent
      left
      intro below
      rw [List.nil_append, List.length_nil, Nat.zero_add]
  | line line rest absent ih =>
      have step : ∀ below, linesWhile property (line ++ newline :: rest ++ below) =
          if property line then line.length + 1 + linesWhile property (rest ++ below) else 0 := by
        intro below
        rw [List.append_assoc, List.cons_append, linesWhile_line property absent]
      have size : (line ++ newline :: rest).length = line.length + 1 + rest.length := by
        rw [List.length_append, List.length_cons]
        omega
      cases holds : property line
      · right
        refine ⟨0, by omega, fun below => ?_⟩
        rw [step, holds, if_neg (by simp)]
      · have regrouped : line ++ newline :: rest = (line ++ [newline]) ++ rest := by simp
        have wholeRest : WholeLines rest := WholeLines.of_append (regrouped ▸ whole)
        rcases ih wholeRest with all | ⟨length, within, some⟩
        · left
          intro below
          rw [step, holds, if_pos rfl, all, size]
          omega
        · right
          refine ⟨line.length + 1 + length, by omega, fun below => ?_⟩
          rw [step, holds, if_pos rfl, some]

/-- The lines at the start of a text take up nothing, or at least the first one. -/
theorem linesWhile_first (property : Text → Bool) (text : Text) :
    linesWhile property text = 0 ∧ property (firstLine text) = false ∨
      (firstLine text).length + 1 ≤ linesWhile property text := by
  rcases Text.line_cases text with absent | ⟨line, rest, absent, rfl⟩
  · rw [linesWhile_last property absent, Text.firstLine_of_not_mem absent]
    cases property text
    · exact Or.inl ⟨rfl, rfl⟩
    · exact Or.inr (Nat.le_refl _)
  · rw [linesWhile_line property absent, Text.firstLine_append_newline absent]
    cases property line
    · exact Or.inl ⟨rfl, rfl⟩
    · exact Or.inr (Nat.le_add_right _ _)

end AccessorLint.Source
