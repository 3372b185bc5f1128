import Mathlib
import AccessorLint.Proofs.PaddedCode
import AccessorLint.Proofs.PaddedText
set_option autoImplicit false

/-!
Line endings.

A text whose lines end with a carriage return and a newline is a padded one, so it has the methods of the text whose
lines end with a newline alone, on the same lines and in the same columns.  The exception are here-documents that are
not indented: the carriage return hides their terminators, and with them everything below.
-/

namespace AccessorLint

open AccessorLint.Symbol (newline)

/-- The text with a carriage return before each newline. -/
def Text.crlf (text : Text) : Text :=
  text.flatMap fun symbol => if symbol = newline then [.glyph '\r', newline] else [symbol]

namespace Source

theorem padded_crlf (text : Text) : Padded text text.crlf := by
  induction text with
  | nil => exact .nil
  | cons symbol rest ih =>
      by_cases atLine : symbol = newline
      · have ended : Text.crlf (symbol :: rest) = .glyph '\r' :: newline :: Text.crlf rest := by
          rw [Text.crlf, List.flatMap_cons, if_pos atLine]
          rfl
        rw [ended, atLine]
        exact .pad (by decide) (.line ih)
      · have inside : Text.crlf (symbol :: rest) = symbol :: Text.crlf rest := by
          rw [Text.crlf, List.flatMap_cons, if_neg atLine]
          rfl
        rw [inside]
        exact .symbol atLine ih

/-! ### Here-documents -/

theorem portableHeredocs_iff (text : Text) :
    PortableHeredocs text ↔ ∀ steps < text.length + 1, ∀ heredoc ∈ (Blanking.run steps (Blanking.start text)).pending,
      heredoc.indented = true ∨ heredoc.terminator ∉ text.lines.dropLast := by
  constructor
  · intro portable steps _
    exact portable steps
  · intro portable steps
    rcases Nat.lt_or_ge text.length steps with more | enough
    · rw [Blanking.run_enough (Blanking.start text) (Nat.le_of_lt more) (Nat.le_refl text.length)]
      exact portable text.length (Nat.lt_succ_self _)
    · exact portable steps (Nat.lt_succ_of_le enough)

instance (text : Text) : Decidable (PortableHeredocs text) :=
  decidable_of_iff _ (portableHeredocs_iff text).symm

/-! ### Positions -/

theorem position_padded {code copy : Text} {offset place : Nat} (padded : Padded (code.take offset) (copy.take place))
    (inCode : offset ≤ code.length) (inCopy : place ≤ copy.length) :
    position (lineStarts copy) place = position (lineStarts code) offset := by
  have count := padded.count_newline
  have positioned : ∀ {text : Text} {index : Nat} {above line : Text}, index ≤ text.length → Text.WholeLines above →
      newline ∉ line → text.take index = above ++ line →
      position (lineStarts text) index = (above.count newline + 1, line.length + 1) := by
    intro text index above line within whole absent taken
    have size : index = (above ++ line).length := by rw [← taken, List.length_take_of_le within]
    have textEq : text = above ++ (line ++ text.drop index) := by
      conv_lhs => rw [← List.take_append_drop index text, taken]
      simp
    rw [textEq, size]
    exact position_eq whole absent _
  rcases padded.last_line with ⟨absent, same⟩ | ⟨above, upper, line, absent, codeEq, copyEq⟩
  · rw [positioned inCopy .nil (same ▸ absent) rfl, positioned inCode .nil absent rfl, same]
  · have split : ∀ lines : Text, lines ++ newline :: line = (lines ++ [newline]) ++ line := by simp
    rw [codeEq, copyEq, List.count_append, List.count_append, Nat.add_right_cancel_iff] at count
    rw [split] at codeEq copyEq
    rw [positioned inCopy (.append_newline upper) absent copyEq, positioned inCode (.append_newline above) absent codeEq,
      List.count_append, List.count_append, count]

/-! ### Declarations -/

/-- Whether two declarations differ at most in where they stand in the text, and in the text itself: the line and column
of the name and the first and last line are the same. -/
structure Declaration.Agrees (first second : Declaration) : Prop where
  name : second.name = first.name
  receiver : second.receiver = first.receiver
  argumentCount : second.argumentCount = first.argumentCount
  line : second.nameRange.line = first.nameRange.line
  column : second.nameRange.column = first.nameRange.column
  relatedLines : second.relatedLines = first.relatedLines

theorem Definition.Alike.agrees {code copy : Text} {definition other : Definition}
    (alike : Alike code copy definition other) (text content path : Text) :
    Declaration.Agrees (Declaration.ofDefinition text path (lineStarts code) definition)
      (Declaration.ofDefinition content path (lineStarts copy) other) := by
  have named := position_padded alike.nameBegin alike.inCode.1 alike.inCode.2
  have first : (position (lineStarts copy) other.start).1 = (position (lineStarts code) definition.start).1 := by
    rw [position_line, position_line, alike.start.count_newline]
  have last : (position (lineStarts copy) (other.stop - 1)).1 =
      (position (lineStarts code) (definition.stop - 1)).1 := by
    rw [position_line, position_line, alike.stop]
  refine ⟨alike.name, alike.receiver, alike.argumentCount, congrArg Prod.fst named, congrArg Prod.snd named, ?_⟩
  change ((position (lineStarts copy) other.start).1, (position (lineStarts copy) (max other.start (other.stop - 1))).1) =
    ((position (lineStarts code) definition.start).1,
      (position (lineStarts code) (max definition.start (definition.stop - 1))).1)
  rw [position_line_max, position_line_max, first, last]

/-- A padded text declares the same methods, on the same lines and in the same columns. -/
theorem scan_padded {text padding : Text} (padded : Padded text padding) (portable : PortableHeredocs text)
    (path : Text) :
    List.Forall₂ Declaration.Agrees (Declaration.scan text path) (Declaration.scan padding path) := by
  have definitions := Definition.all_padded (blank_padded padded portable)
  rw [Declaration.scan, Declaration.scan, (sameLines_blank text).lineStarts, (sameLines_blank padding).lineStarts,
    List.forall₂_map_left_iff, List.forall₂_map_right_iff]
  exact definitions.imp fun _ _ alike => alike.agrees text padding path

end Source

open Source (Declaration PortableHeredocs)

/-- Whether lines end with a newline or with a carriage return and a newline does not matter to what is found in a file,
if no here-document without indentation finds its terminator. -/
theorem scan_independent_of_line_endings (text path : Text) (portable : PortableHeredocs text) :
    List.Forall₂ Declaration.Agrees (Declaration.scan text path) (Declaration.scan text.crlf path) :=
  Source.scan_padded (Source.padded_crlf text) portable path

theorem methods_around_indented_heredoc_found :
    let text : Text := "=begin\ndef a\n=end\nx = <<~EOS # 1\n def b\n EOS\ndef C.get_x(a,\n b) 'c\\\n'\nend\ndef d = 1\n"
    PortableHeredocs text ∧ text.crlf.length = text.length + 11 ∧
      (Declaration.scan text "a.rb").map (·.name) = ["get_x", "d"] ∧
      (Declaration.scan text "a.rb").map (·.relatedLines) = [(7, 10), (11, 11)] ∧
      List.Forall₂ Declaration.Agrees (Declaration.scan text "a.rb") (Declaration.scan text.crlf "a.rb") := by
  intro text
  have portable : PortableHeredocs text := by decide +kernel
  exact ⟨portable, by decide, by decide +kernel, by decide +kernel,
    scan_independent_of_line_endings text "a.rb" portable⟩

/-- A carriage return after the terminator of a here-document that is not indented hides the methods below. -/
theorem method_below_unindented_heredoc_lost :
    let text : Text := "x = <<EOS\ntext\nEOS\ndef get_x(a)\nend\n"
    (Declaration.scan text "a.rb").map (·.name) = ["get_x"] ∧ Declaration.scan text.crlf "a.rb" = [] := by
  decide +kernel

end AccessorLint
