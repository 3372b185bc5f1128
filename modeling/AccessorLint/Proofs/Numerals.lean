import Mathlib
import AccessorLint.Proofs.Symbols
import AccessorLint.Value.Whole
set_option autoImplicit false

/-!
Which values can be read as whole numbers, and as which.

A text writes a whole number if a sign or none and not too many digits stand between blanks.  The digits may be those
of any script, and single underscores may stand between them.
-/

namespace AccessorLint

namespace Whole

/-! ### Numerals -/

/-- The digits of a numeral by their values.  An underscore may stand between two of them. -/
inductive Digits : Text → List Nat → Prop where
  | last {symbol : Symbol} {value : Nat} (isDigit : digitValue? symbol = some value) : Digits [symbol] [value]
  | next {symbol : Symbol} {value : Nat} {rest : Text} {values : List Nat} (isDigit : digitValue? symbol = some value)
      (others : Digits rest values) : Digits (symbol :: rest) (value :: values)
  | apart {symbol : Symbol} {value : Nat} {rest : Text} {values : List Nat} (isDigit : digitValue? symbol = some value)
      (others : Digits rest values) : Digits (symbol :: .glyph '_' :: rest) (value :: values)

/-- A sign or none, and the number that it makes of another. -/
inductive Signs : Text → Nat → Int → Prop where
  | none (number : Nat) : Signs [] number number
  | plus (number : Nat) : Signs [.glyph '+'] number number
  | minus (number : Nat) : Signs [.glyph '-'] number (-number)

/-- Whether a text writes a whole number. -/
inductive Writes : Text → Int → Prop where
  | intro {before sign numeral after : Text} {values : List Nat} {number : Int}
      (blankBefore : ∀ symbol ∈ before, isSpace symbol = true) (signs : Signs sign (ofDigits values) number)
      (digits : Digits numeral values) (few : values.length ≤ maxDigits)
      (blankAfter : ∀ symbol ∈ after, isSpace symbol = true) : Writes (before ++ (sign ++ (numeral ++ after))) number

/-! ### Symbols of a numeral -/

theorem isBlank_of_isSpace {symbol : Symbol} (space : isSpace symbol = true) : symbol.isBlank = true := by
  rcases Bool.or_eq_true_iff.mp space with ascii | other
  · have isOne : symbol ∈ [' ', '\t', '\n', '\x0b', '\x0c', '\r'].map Symbol.glyph := by
      simpa [Symbol.isOneOf] using ascii
    exact (by decide : ∀ symbol ∈ [' ', '\t', '\n', '\x0b', '\x0c', '\r'].map Symbol.glyph, symbol.isBlank = true)
      symbol isOne
  · exact (Bool.and_eq_true_iff.mp other).2

theorem digitValue?_of_isSpace {symbol : Symbol} (space : isSpace symbol = true) : digitValue? symbol = none := by
  have blank := isBlank_of_isSpace space
  cases symbol with
  | stray low => rfl
  | glyph char =>
      have apart : ∀ first ∈ Text.blanks, ∀ second ∈ Text.decimalDigits, first.2 < second.1 ∨ second.2 < first.1 := by
        decide +kernel
      obtain ⟨first, isFirst, fromFirst, toFirst⟩ := Text.Table.exists_run blank
      change Text.decimalValue? char = none
      rw [Text.decimalValue?, Option.map_eq_none_iff, List.find?_eq_none]
      intro second isSecond inside
      rw [Bool.and_eq_true, decide_eq_true_iff, decide_eq_true_iff] at inside
      rcases apart first isFirst second isSecond with before | after <;> omega

theorem isSpace_of_isDigit {symbol : Symbol} {value : Nat} (isDigit : digitValue? symbol = some value) :
    isSpace symbol = false := by
  rw [Bool.eq_false_iff]
  intro space
  rw [digitValue?_of_isSpace space] at isDigit
  cases isDigit

theorem ne_of_isDigit {symbol : Symbol} {value : Nat} (isDigit : digitValue? symbol = some value) {char : Char}
    (noDigit : digitValue? (.glyph char) = none) : symbol ≠ .glyph char := by
  rintro rfl
  rw [noDigit] at isDigit
  cases isDigit

/-! ### Reading digits -/

theorem digits?_of_isDigit {symbol : Symbol} {value : Nat} (isDigit : digitValue? symbol = some value)
    (afterDigit : Bool) (rest : Text) :
    digits? afterDigit (symbol :: rest) = (digits? true rest).map fun (values, after) => (value :: values, after) := by
  rw [digits?, if_neg (ne_of_isDigit isDigit (by decide +kernel)), isDigit]

/-- Reading stops at a symbol that does not belong to a numeral. -/
theorem digits?_stop {after : Text}
    (stops : ∀ first, after.head? = some first → digitValue? first = none ∧ first ≠ .glyph '_') :
    digits? true after = some ([], after) := by
  cases after with
  | nil => rfl
  | cons first rest =>
      obtain ⟨noDigit, noUnderscore⟩ := stops first rfl
      rw [digits?, if_neg noUnderscore, noDigit]
      rfl

theorem Digits.read {numeral : Text} {values : List Nat} (digits : Digits numeral values) {after : Text}
    (stops : ∀ first, after.head? = some first → digitValue? first = none ∧ first ≠ .glyph '_') (afterDigit : Bool) :
    digits? afterDigit (numeral ++ after) = some (values, after) := by
  induction digits generalizing afterDigit with
  | last isDigit =>
      rw [List.cons_append, digits?_of_isDigit isDigit, List.nil_append, digits?_stop stops]
      rfl
  | next isDigit others ih =>
      rw [List.cons_append, digits?_of_isDigit isDigit, ih true]
      rfl
  | apart isDigit others ih =>
      rw [List.cons_append, List.cons_append, digits?_of_isDigit isDigit, digits?, if_pos rfl, if_pos rfl, ih false]
      rfl

theorem Digits.first {numeral : Text} {values : List Nat} (digits : Digits numeral values) :
    ∃ symbol rest value, numeral = symbol :: rest ∧ digitValue? symbol = some value := by
  cases digits with
  | last isDigit => exact ⟨_, _, _, rfl, isDigit⟩
  | next isDigit others => exact ⟨_, _, _, rfl, isDigit⟩
  | apart isDigit others => exact ⟨_, _, _, rfl, isDigit⟩

/-- The sign of a numeral is read, and does not count as a blank before it. -/
theorem Signs.read {sign numeral after : Text} {values : List Nat} {number : Int}
    (signs : Signs sign (ofDigits values) number) (digits : Digits numeral values) :
    (sign ++ (numeral ++ after)).dropWhile isSpace = sign ++ (numeral ++ after) ∧
      ∃ negative, unsigned (sign ++ (numeral ++ after)) = (negative, numeral ++ after) ∧
        (if negative then -(ofDigits values : Int) else ofDigits values) = number := by
  cases signs with
  | none =>
      obtain ⟨symbol, rest, value, rfl, isDigit⟩ := digits.first
      refine ⟨List.dropWhile_cons_of_neg (by simp [isSpace_of_isDigit isDigit]), false, ?_, rfl⟩
      have noMinus : symbol ≠ .glyph '-' := ne_of_isDigit isDigit (by decide +kernel)
      have noPlus : symbol ≠ .glyph '+' := ne_of_isDigit isDigit (by decide +kernel)
      rw [List.nil_append, List.cons_append, unsigned]
      · exact fun _ same => noMinus (List.cons.inj same).1
      · exact fun _ same => noPlus (List.cons.inj same).1
  | plus => exact ⟨List.dropWhile_cons_of_neg (by decide +kernel), false, rfl, rfl⟩
  | minus => exact ⟨List.dropWhile_cons_of_neg (by decide +kernel), true, rfl, rfl⟩

theorem Writes.read {text : Text} {number : Int} (writes : Writes text number) : ofText text = .ok number := by
  obtain ⟨blankBefore, signs, digits, few, blankAfter⟩ := writes
  rename_i before sign numeral after values
  obtain ⟨noBlank, negative, readSign, isNumber⟩ := @Signs.read sign numeral after values number signs digits
  have stops : ∀ first, after.head? = some first → digitValue? first = none ∧ first ≠ .glyph '_' := by
    intro first isFirst
    have space := blankAfter first (List.mem_of_mem_head? isFirst)
    refine ⟨digitValue?_of_isSpace space, ?_⟩
    rintro rfl
    exact absurd space (by decide +kernel)
  unfold ofText
  rw [List.dropWhile_append_of_pos blankBefore, noBlank, readSign]
  dsimp only
  rw [digits.read stops false]
  dsimp only
  rw [if_neg (Nat.not_lt_of_le few), if_pos (List.all_eq_true.mpr blankAfter), isNumber]

end Whole

/-! ### Values -/

namespace Value

end Value

end AccessorLint
