import Mathlib
import AccessorLint.Source.Literal
set_option autoImplicit false

/-!
How the classes of symbols lie to each other: what starts an identifier belongs to a word, and gaps, quotation marks
and brackets do not.  A text starts with a run of symbols of a class, which ends before the first one outside.
-/

namespace AccessorLint

namespace Text

theorem isLetter_of_isAlpha {char : Char} (alpha : char.isAlpha = true) : isLetter char = true := by
  have runs : letters = (0x41, 0x5A) :: (0x61, 0x7A) :: letters.drop 2 := rfl
  rw [isLetter, runs, Table.holds, Table.holds]
  simp only [Char.isAlpha, Char.isUpper, Char.isLower, ge_iff_le, UInt32.le_iff_toNat_le, Bool.or_eq_true,
    Bool.and_eq_true, decide_eq_true_eq] at alpha
  change (65 ≤ char.toNat ∧ char.toNat ≤ 90) ∨ (97 ≤ char.toNat ∧ char.toNat ≤ 122) at alpha
  rcases alpha with upper | lower
  · rw [if_neg (by omega), decide_eq_true upper.2, Bool.true_or]
  · rw [if_neg (by omega), if_neg (by omega), decide_eq_true lower.2, Bool.true_or, Bool.or_true]

theorem Table.exists_run {table : Table} {code : Nat} (holds : table.holds code = true) :
    ∃ run ∈ table, run.1 ≤ code ∧ code ≤ run.2 := by
  induction table with
  | nil => cases holds
  | cons run later ih =>
      rw [Table.holds] at holds
      split at holds
      · cases holds
      · rename_i reached
        rcases Bool.or_eq_true_iff.mp holds with within | beyond
        · exact ⟨run, List.mem_cons_self .., Nat.le_of_not_lt reached, of_decide_eq_true within⟩
        · obtain ⟨other, member, bounds⟩ := ih beyond
          exact ⟨other, List.mem_cons_of_mem _ member, bounds⟩

/-- Tables whose runs do not meet hold no code point together. -/
theorem Table.holds_apart {left right : Table}
    (apart : ∀ first ∈ left, ∀ second ∈ right, first.2 < second.1 ∨ second.2 < first.1) {code : Nat}
    (holds : left.holds code = true) : right.holds code = false := by
  rw [Bool.eq_false_iff]
  intro other
  obtain ⟨first, inLeft, fromFirst, toFirst⟩ := Table.exists_run holds
  obtain ⟨second, inRight, fromSecond, toSecond⟩ := Table.exists_run other
  rcases apart first inLeft second inRight with before | after <;> omega

theorem isWordChar_of_isBlank {char : Char} (blank : isBlank char = true) : isWordChar char = false := by
  have letter : isLetter char = false := Table.holds_apart (by decide +kernel) blank
  have decimal : isDecimal char = false := Table.holds_apart (by decide +kernel) blank
  have marked : markedDigits.holds char.toNat = false := Table.holds_apart (by decide +kernel) blank
  have other : otherNumerals.holds char.toNat = false := Table.holds_apart (by decide +kernel) blank
  have underscore : char ≠ '_' := by
    rintro rfl
    cases blank
  rw [isWordChar, isAlphanumeric, isDigit, letter, decimal, marked, other, beq_false_of_ne underscore]
  rfl

end Text

namespace Symbol

theorem isWord_of_isAlphanumeric {symbol : Symbol} (alphanumeric : symbol.isAlphanumeric = true) :
    symbol.isWord = true := by
  cases symbol with
  | glyph char =>
      change Text.isAlphanumeric char = true at alphanumeric
      change (Text.isAlphanumeric char || char == '_') = true
      rw [alphanumeric, Bool.true_or]
  | stray low => cases alphanumeric

theorem isWord_of_isNameStart {symbol : Symbol} (start : symbol.isNameStart = true) : symbol.isWord = true := by
  cases symbol with
  | glyph char =>
      change (char.isAlpha || char == '_') = true at start
      change (Text.isAlphanumeric char || char == '_') = true
      rcases Bool.or_eq_true_iff.mp start with alpha | same
      · rw [Text.isAlphanumeric, Text.isLetter_of_isAlpha alpha]
        rfl
      · rw [same, Bool.or_true]
  | stray low => cases start

theorem isWord_of_isUpper {symbol : Symbol} (upper : symbol.satisfies Char.isUpper = true) :
    symbol.isWord = true := by
  cases symbol with
  | glyph char =>
      apply isWord_of_isNameStart
      change (char.isAlpha || char == '_') = true
      rw [Char.isAlpha, show char.isUpper = true from upper]
      rfl
  | stray low => cases upper

theorem isBlank_of_isWord {symbol : Symbol} (word : symbol.isWord = true) : symbol.isBlank = false := by
  cases symbol with
  | glyph char =>
      rw [Bool.eq_false_iff]
      intro blank
      have noWord := Text.isWordChar_of_isBlank blank
      rw [show Text.isWordChar char = true from word] at noWord
      cases noWord
  | stray low => rfl

theorem isWord_of_isBlank {symbol : Symbol} (blank : symbol.isBlank = true) : symbol.isWord = false := by
  rw [Bool.eq_false_iff]
  intro word
  rw [isBlank_of_isWord word] at blank
  cases blank

theorem isNameStart_of_isBlank {symbol : Symbol} (blank : symbol.isBlank = true) : symbol.isNameStart = false := by
  rw [Bool.eq_false_iff]
  intro start
  rw [isBlank_of_isWord (isWord_of_isNameStart start)] at blank
  cases blank

/-- A symbol with a property differs from one without it. -/
theorem ne_of_property {property : Symbol → Bool} {left right : Symbol} (holds : property left = true)
    (fails : property right = false) : left ≠ right := by
  rintro rfl
  rw [holds] at fails
  cases fails

/-- A blank is none of some characters that are not blank. -/
theorem isOneOf_of_isBlank {symbol : Symbol} (blank : symbol.isBlank = true) {chars : String}
    (visible : (chars.toList.all fun char => !Text.isBlank char) = true) : symbol.isOneOf chars = false := by
  rw [isOneOf, List.any_eq_false]
  intro char member
  have noBlank := List.all_eq_true.mp visible char member
  rw [beq_iff_eq]
  exact ne_of_property blank (Bool.not_eq_true' _ ▸ noBlank)

end Symbol

namespace Source

theorem isGap_iff (symbol : Symbol) : isGap symbol = true ↔ symbol = .glyph ' ' ∨ symbol = .glyph '\t' := by
  simp [isGap, Symbol.isOneOf]

theorem isQuote_iff (symbol : Symbol) :
    isQuote symbol = true ↔ symbol = .glyph '"' ∨ symbol = .glyph '\'' ∨ symbol = .glyph '`' := by
  simp [isQuote, Symbol.isOneOf]

theorem isWord_of_isGap {symbol : Symbol} (gap : isGap symbol = true) : symbol.isWord = false := by
  rcases (isGap_iff symbol).mp gap with rfl | rfl <;> decide

theorem isBlank_of_isGap {symbol : Symbol} (gap : isGap symbol = true) : symbol.isBlank = true := by
  rcases (isGap_iff symbol).mp gap with rfl | rfl <;> decide

theorem ne_newline_of_isGap {symbol : Symbol} (gap : isGap symbol = true) : symbol ≠ Symbol.newline := by
  rcases (isGap_iff symbol).mp gap with rfl | rfl <;> decide

theorem ne_newline_of_isWord {symbol : Symbol} (word : symbol.isWord = true) : symbol ≠ Symbol.newline :=
  Symbol.ne_of_property word (by decide)

theorem isDecimal_of_isDigit {char : Char} (digit : char.isDigit = true) : Text.isDecimal char = true := by
  have runs : Text.decimalDigits = (0x30, 0x39) :: Text.decimalDigits.drop 1 := rfl
  rw [Text.isDecimal, runs, Text.Table.holds]
  simp only [Char.isDigit, ge_iff_le, UInt32.le_iff_toNat_le, Bool.and_eq_true, decide_eq_true_eq] at digit
  change 48 ≤ char.toNat ∧ char.toNat ≤ 57 at digit
  rw [if_neg (by omega), decide_eq_true digit.2, Bool.true_or]

theorem isWord_of_isNamePart {symbol : Symbol} (part : symbol.isNamePart = true) : symbol.isWord = true := by
  cases symbol with
  | glyph char =>
      change (char.isAlphanum || char == '_') = true at part
      change (Text.isLetter char || (Text.isDecimal char || Text.markedDigits.holds char.toNat) ||
        Text.otherNumerals.holds char.toNat || char == '_') = true
      simp only [Char.isAlphanum, Bool.or_eq_true] at part
      rcases part with (alpha | digit) | same
      · rw [Text.isLetter_of_isAlpha alpha]
        rfl
      · rw [isDecimal_of_isDigit digit, Bool.true_or, Bool.or_true]
        rfl
      · rw [same, Bool.or_true]
  | stray low => cases part

theorem isNamePart_of_isBlank {symbol : Symbol} (blank : symbol.isBlank = true) : symbol.isNamePart = false := by
  rw [Bool.eq_false_iff]
  intro part
  rw [Symbol.isBlank_of_isWord (isWord_of_isNamePart part)] at blank
  cases blank

/-! ### Runs of symbols -/

/-- A symbol without the property stands after the whole run. -/
theorem append_of_run {property : Symbol → Bool} {run left right rest : Text} {symbol : Symbol}
    (inside : ∀ other ∈ run, property other = true) (outside : property symbol = false)
    (same : left ++ symbol :: right = run ++ rest) :
    ∃ between, left = run ++ between ∧ rest = between ++ symbol :: right := by
  rcases List.append_eq_append_iff.mp same with ⟨more, runEq, restEq⟩ | ⟨between, leftEq, restEq⟩
  · cases more with
    | nil => exact ⟨[], by simpa using runEq.symm, by simpa using restEq.symm⟩
    | cons first others =>
        obtain ⟨rfl, -⟩ := List.cons.inj restEq
        have holds := inside symbol (by simp [runEq])
        rw [outside] at holds
        cases holds
  · exact ⟨between, leftEq, restEq⟩

/-- A text starts with a run of symbols that have a property, and goes on with one that has not. -/
theorem exists_run (property : Symbol → Bool) (text : Text) :
    ∃ run rest, text = run ++ rest ∧ text.takeWhile property = run ∧ (∀ symbol ∈ run, property symbol = true) ∧
      ∀ next ∈ rest.head?, property next = false := by
  refine ⟨text.takeWhile property, text.dropWhile property, List.takeWhile_append_dropWhile.symm, rfl,
    fun symbol member => List.mem_takeWhile_imp member, ?_⟩
  intro next member
  have fails := List.head?_dropWhile_not property text
  rw [Option.mem_def.mp member] at fails
  simpa using fails

theorem stops_cons {property : Symbol → Bool} {symbol : Symbol} (fails : property symbol = false) (rest : Text) :
    ∀ next ∈ (symbol :: rest).head?, property next = false := by
  intro next member
  cases member
  exact fails

/-- Where a symbol without the property follows, nothing after it counts. -/
theorem takeWhile_append_stop {property : Symbol → Bool} (text : Text) {rest : Text}
    (stops : ∀ next ∈ rest.head?, property next = false) :
    (text ++ rest).takeWhile property = text.takeWhile property := by
  induction text with
  | nil =>
      cases rest with
      | nil => rfl
      | cons next later => exact List.takeWhile_cons_of_neg (by simp [stops next rfl])
  | cons symbol others ih => rw [List.cons_append, List.takeWhile_cons, List.takeWhile_cons, ih]

theorem takeWhile_run {property : Symbol → Bool} {run rest : Text} (inside : ∀ symbol ∈ run, property symbol = true)
    (stops : ∀ next ∈ rest.head?, property next = false) : (run ++ rest).takeWhile property = run := by
  rw [takeWhile_append_stop run stops, List.takeWhile_eq_self_iff]
  exact inside

theorem dropWhile_run {property : Symbol → Bool} {run rest : Text} (inside : ∀ symbol ∈ run, property symbol = true)
    (stops : ∀ next ∈ rest.head?, property next = false) : (run ++ rest).dropWhile property = rest := by
  rw [List.dropWhile_append_of_pos inside]
  cases rest with
  | nil => rfl
  | cons next later => exact List.dropWhile_cons_of_neg (by simp [stops next rfl])

end Source

end AccessorLint
