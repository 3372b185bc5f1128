import Mathlib
import AccessorLint.Source.Header
import AccessorLint.Proofs.Symbols
set_option autoImplicit false

/-!
How the head of a method is written.

Between `def` and the name stands a lead: gaps, or gaps, a receiver and a dot with gaps around it.  A head is read
exactly where `def`, a lead and a name stand.  What is read after the name depends only on the text after the name.
-/

namespace AccessorLint.Source

/-! ### Words and names -/

/-- Whether a text is a word that starts like an identifier. -/
structure IsIdentifier (word : Text) : Prop where
  starts : ∃ first ∈ word.head?, first.isNameStart = true
  words : ∀ symbol ∈ word, symbol.isWord = true

theorem IsIdentifier.ne_nil {word : Text} (identifier : IsIdentifier word) : word ≠ [] := by
  rintro rfl
  obtain ⟨first, member, -⟩ := identifier.starts
  cases member

theorem wordLength_append_stop (text : Text) {rest : Text} (stops : ∀ next ∈ rest.head?, next.isWord = false) :
    wordLength (text ++ rest) = wordLength text := by
  cases text with
  | nil =>
      cases rest with
      | nil => rfl
      | cons next later =>
          have noStart : ¬next.isNameStart = true := by
            intro start
            have word := Symbol.isWord_of_isNameStart start
            rw [stops next rfl] at word
            cases word
          exact if_neg noStart
  | cons first others =>
      rw [List.cons_append, wordLength, wordLength, takeWhile_append_stop others stops]

theorem IsIdentifier.wordLength_eq {word : Text} (identifier : IsIdentifier word) : wordLength word = word.length := by
  obtain ⟨starts, words⟩ := identifier
  cases word with
  | nil => rfl
  | cons first others =>
      obtain ⟨symbol, member, start⟩ := starts
      cases member
      rw [wordLength, if_pos start, List.takeWhile_eq_self_iff.mpr
        (fun other member => words other (List.mem_cons_of_mem _ member)), List.length_cons, Nat.add_comm]

/-- A text starts with an identifier that ends where the words end, or with none. -/
theorem wordLength_cases (text : Text) :
    wordLength text = 0 ∧ (∀ first ∈ text.head?, first.isNameStart = false) ∨
      ∃ word rest, text = word ++ rest ∧ IsIdentifier word ∧ (∀ next ∈ rest.head?, next.isWord = false) ∧
        wordLength text = word.length := by
  cases text with
  | nil => exact Or.inl ⟨rfl, fun first member => by cases member⟩
  | cons first others =>
      by_cases start : first.isNameStart = true
      · obtain ⟨run, rest, rfl, -, inside, stops⟩ := exists_run Symbol.isWord others
        have identifier : IsIdentifier (first :: run) := by
          refine ⟨⟨first, rfl, start⟩, ?_⟩
          intro symbol member
          rcases List.mem_cons.mp member with rfl | inRun
          · exact Symbol.isWord_of_isNameStart start
          · exact inside symbol inRun
        refine Or.inr ⟨first :: run, rest, rfl, identifier, stops, ?_⟩
        rw [← List.cons_append, wordLength_append_stop _ stops, identifier.wordLength_eq]
      · left
        refine ⟨by rw [wordLength, if_neg start], ?_⟩
        intro symbol member
        cases member
        exact Bool.eq_false_iff.mpr start

theorem wordLength_le (text : Text) : wordLength text ≤ text.length := by
  rcases wordLength_cases text with ⟨none, -⟩ | ⟨word, rest, rfl, -, -, length⟩
  · omega
  · rw [length, List.length_append]
    omega

theorem markLength_cases (text : Text) :
    markLength text = 0 ∨
      ∃ mark later, text = mark :: later ∧ mark.isOneOf "=?!" = true ∧ markLength text = 1 := by
  cases text with
  | nil => exact Or.inl rfl
  | cons mark later =>
      rw [markLength]
      split_ifs with question equals
      · right
        refine ⟨mark, later, rfl, ?_, rfl⟩
        simp only [Symbol.isOneOf, String.reduceToList, List.any_cons, List.any_nil, Bool.or_false, Bool.or_eq_true,
          beq_iff_eq] at question ⊢
        exact Or.inr question
      · right
        refine ⟨mark, later, rfl, ?_, rfl⟩
        rw [of_decide_eq_true (Bool.and_eq_true_iff.mp equals).1]
        decide
      · exact Or.inl rfl

/-- A name that starts with an identifier is the identifier and perhaps a mark. -/
theorem nameLength_identifier {word rest : Text} (identifier : IsIdentifier word)
    (stops : ∀ next ∈ rest.head?, next.isWord = false) :
    nameLength (word ++ rest) = word.length + markLength rest := by
  have positive := List.length_pos_iff.mpr identifier.ne_nil
  rw [nameLength, wordLength_append_stop word stops, identifier.wordLength_eq, if_neg (by omega), List.drop_left]

theorem IsIdentifier.append {word run : Text} (identifier : IsIdentifier word)
    (words : ∀ symbol ∈ run, symbol.isWord = true) : IsIdentifier (word ++ run) := by
  obtain ⟨⟨first, member, start⟩, inWord⟩ := identifier
  obtain ⟨others, rfl⟩ := List.head?_eq_some_iff.mp member
  refine ⟨⟨first, rfl, start⟩, ?_⟩
  intro symbol inside
  rcases List.mem_append.mp inside with old | new
  · exact inWord symbol old
  · exact words symbol new

/-- A name that is an identifier is a whole word. -/
theorem IsIdentifier.stops {word rest : Text} (identifier : IsIdentifier word)
    (named : nameLength (word ++ rest) = word.length) : ∀ next ∈ rest.head?, next.isWord = false := by
  obtain ⟨run, below, rfl, -, words, stops⟩ := exists_run Symbol.isWord rest
  rw [← List.append_assoc, nameLength_identifier (identifier.append words) stops, List.length_append] at named
  have none : run = [] := List.length_eq_zero_iff.mp (by omega)
  rw [none]
  exact stops

/-- An ordinary name: an identifier other than `def`, or an identifier with `=` after it. -/
inductive Ordinary : Text → Prop where
  | word {word : Text} (identifier : IsIdentifier word) (free : word ≠ "def") : Ordinary word
  | assignment {word : Text} (identifier : IsIdentifier word) : Ordinary (word ++ "=")

theorem Ordinary.ne_nil {name : Text} (ordinary : Ordinary name) : name ≠ [] := by
  cases ordinary with
  | word identifier => exact identifier.ne_nil
  | assignment => simp [Text.ofString]

theorem Ordinary.symbols {name : Text} (ordinary : Ordinary name) :
    ∀ symbol ∈ name, symbol.isWord = true ∨ symbol = .glyph '=' := by
  intro symbol member
  cases ordinary with
  | word identifier free => exact Or.inl (identifier.words symbol member)
  | assignment identifier =>
      rcases List.mem_append.mp member with inWord | isMark
      · exact Or.inl (identifier.words symbol inWord)
      · exact Or.inr (List.mem_singleton.mp isMark)

/-- A symbol that is neither part of a word nor `=` is not in an ordinary name. -/
theorem Ordinary.not_mem {name : Text} (ordinary : Ordinary name) {symbol : Symbol} (noWord : symbol.isWord = false)
    (noMark : symbol ≠ .glyph '=') : symbol ∉ name := by
  intro member
  rcases ordinary.symbols symbol member with word | mark
  · rw [noWord] at word
    cases word
  · exact noMark mark

/-- Before the last symbol of an ordinary name there are only symbols of words. -/
theorem Ordinary.words {name front back : Text} (ordinary : Ordinary name) (split : name = front ++ back)
    (nonempty : back ≠ []) : ∀ symbol ∈ front, symbol.isWord = true := by
  intro symbol member
  cases ordinary with
  | word identifier => exact identifier.words symbol (by simp [split, member])
  | @assignment word identifier =>
      obtain ⟨others, last, rfl⟩ := (List.eq_nil_or_concat' back).resolve_left nonempty
      rw [← List.append_assoc] at split
      obtain ⟨wordEq, -⟩ := List.append_inj' split rfl
      exact identifier.words symbol (by simp [wordEq, member])

theorem nameLength_le (text : Text) : nameLength text ≤ text.length := by
  have word := wordLength_le text
  simp only [nameLength]
  split
  · cases found : operatorNames.find? fun operator => text.startsWith operator with
    | none => exact Nat.zero_le _
    | some operator =>
        have starts := List.find?_some found
        exact (List.isPrefixOf_iff_prefix.mp starts).length_le
  · rcases markLength_cases (text.drop (wordLength text)) with none | ⟨mark, later, rest, -, one⟩
    · omega
    · have size := congrArg List.length rest
      rw [List.length_drop, List.length_cons] at size
      omega

/-- No name starts with a symbol that starts neither an identifier nor an operator. -/
theorem nameLength_eq_zero {first : Symbol} (rest : Text) (noStart : first.isNameStart = false)
    (noOperator : ∀ operator ∈ operatorNames, ∃ symbol ∈ operator.head?, symbol ≠ first) :
    nameLength (first :: rest) = 0 := by
  have noWord : wordLength (first :: rest) = 0 := by rw [wordLength, noStart, if_neg Bool.false_ne_true]
  have none : (operatorNames.find? fun operator => Text.startsWith (first :: rest) operator) = none := by
    rw [List.find?_eq_none]
    intro operator member starts
    obtain ⟨symbol, head, different⟩ := noOperator operator member
    obtain ⟨later, rfl⟩ := List.head?_eq_some_iff.mp head
    obtain ⟨more, same⟩ := List.isPrefixOf_iff_prefix.mp starts
    exact different (List.cons.inj same).1
  rw [nameLength, noWord, if_pos rfl, none]
  rfl

theorem nameLength_gap {gap : Symbol} (isGap : isGap gap = true) (rest : Text) : nameLength (gap :: rest) = 0 := by
  rcases (isGap_iff gap).mp isGap with rfl | rfl <;>
    exact nameLength_eq_zero rest (by decide) (by decide)

theorem nameLength_dot (rest : Text) : nameLength (.glyph '.' :: rest) = 0 :=
  nameLength_eq_zero rest (by decide) (by decide)

/-! ### Receivers -/

/-- Whether the symbol may stand in a receiver. -/
def isPathPart (symbol : Symbol) : Bool :=
  symbol.isWord || symbol = .glyph ':'

/-- The length of the word and the constants at the start of a text. -/
def pathLength (text : Text) : Nat :=
  wordLength text + constantsLength (text.takeWhile isPathPart).length (text.drop (wordLength text))

theorem receiver?_eq (text : Text) :
    receiver? text =
      if wordLength text = 0 then none
      else
        let before := ((text.drop (pathLength text)).takeWhile isGap).length
        if (text.drop (pathLength text + before)).head? = some (.glyph '.') then
          let after := ((text.drop (pathLength text + before + 1)).takeWhile isGap).length
          some (pathLength text, pathLength text + before + 1 + after)
        else none := rfl

theorem constantsLength_colons (fuel : Nat) (text : Text) :
    constantsLength (fuel + 1) (Text.ofString "::" ++ text) =
      if text.head?.any (Symbol.satisfies Char.isUpper) then
        2 + wordLength text + constantsLength fuel (text.drop (wordLength text))
      else 0 := by
  rw [constantsLength]
  have starts : Text.startsWith (Text.ofString "::" ++ text) "::" = true :=
    List.isPrefixOf_iff_prefix.mpr (List.prefix_append _ _)
  have dropped : (Text.ofString "::" ++ text).drop 2 = text := rfl
  have further : (Text.ofString "::" ++ text).drop (2 + wordLength text) = text.drop (wordLength text) := by
    rw [← List.drop_drop, dropped]
  simp only [starts, dropped, further, Bool.true_and]

theorem constantsLength_of_not_colons (fuel : Nat) {text : Text} (other : Text.startsWith text "::" = false) :
    constantsLength fuel text = 0 := by
  cases fuel with
  | zero => rfl
  | succ fuel => rw [constantsLength, other, Bool.false_and, if_neg Bool.false_ne_true]

theorem constantsLength_le (fuel : Nat) (text : Text) : constantsLength fuel text ≤ text.length := by
  induction fuel generalizing text with
  | zero => exact Nat.zero_le _
  | succ fuel ih =>
      cases starts : Text.startsWith text "::" with
      | false =>
          rw [constantsLength_of_not_colons _ starts]
          exact Nat.zero_le _
      | true =>
          obtain ⟨later, rfl⟩ := List.isPrefixOf_iff_prefix.mp starts
          have word := wordLength_le later
          have rest := ih (later.drop (wordLength later))
          rw [List.length_drop] at rest
          rw [constantsLength_colons, List.length_append]
          change _ ≤ 2 + later.length
          split <;> omega

/-- What follows a symbol that cannot stand in a receiver does not count. -/
theorem constantsLength_append_stop (fuel : Nat) (text : Text) {rest : Text}
    (stops : ∀ next ∈ rest.head?, isPathPart next = false) :
    constantsLength fuel (text ++ rest) = constantsLength fuel text := by
  have noWord : ∀ next ∈ rest.head?, next.isWord = false := fun next member =>
    (Bool.or_eq_false_iff.mp (stops next member)).1
  have noColon : ∀ next ∈ rest.head?, next ≠ .glyph ':' := fun next member =>
    of_decide_eq_false (Bool.or_eq_false_iff.mp (stops next member)).2
  induction fuel generalizing text with
  | zero => rfl
  | succ fuel ih =>
      cases starts : Text.startsWith text "::" with
      | true =>
          obtain ⟨later, rfl⟩ := List.isPrefixOf_iff_prefix.mp starts
          have upper : (later ++ rest).head?.any (Symbol.satisfies Char.isUpper) =
              later.head?.any (Symbol.satisfies Char.isUpper) := by
            cases later with
            | cons first others => rfl
            | nil =>
                cases rest with
                | nil => rfl
                | cons next below =>
                    change Symbol.satisfies Char.isUpper next = false
                    rw [Bool.eq_false_iff]
                    intro capital
                    have word := Symbol.isWord_of_isUpper capital
                    rw [noWord next rfl] at word
                    cases word
          rw [List.append_assoc, constantsLength_colons, constantsLength_colons, upper,
            wordLength_append_stop later noWord, List.drop_append_of_le_length (wordLength_le later), ih]
      | false =>
          have still : Text.startsWith (text ++ rest) "::" = false := by
            rw [Bool.eq_false_iff]
            intro colons
            obtain ⟨later, same⟩ := List.isPrefixOf_iff_prefix.mp colons
            rcases List.append_eq_append_iff.mp same with ⟨more, textEq, -⟩ | ⟨more, colonsEq, restEq⟩
            · rw [textEq, Text.startsWith, List.isPrefixOf_iff_prefix.mpr (List.prefix_append _ _)] at starts
              cases starts
            · cases more with
              | nil =>
                  rw [List.append_nil] at colonsEq
                  rw [← colonsEq, Text.startsWith, List.isPrefixOf_iff_prefix.mpr (List.prefix_refl _)] at starts
                  cases starts
              | cons first others =>
                  have inside : first ∈ Text.ofString "::" := by simp [colonsEq]
                  have colon : first = .glyph ':' := by simpa [Text.ofString] using inside
                  exact noColon first (by rw [restEq]; rfl) colon
          rw [constantsLength_of_not_colons _ still, constantsLength_of_not_colons _ starts]

theorem pathLength_le (text : Text) : pathLength text ≤ text.length := by
  have word := wordLength_le text
  have constants := constantsLength_le (text.takeWhile isPathPart).length (text.drop (wordLength text))
  rw [List.length_drop] at constants
  rw [pathLength]
  omega

theorem pathLength_append_stop (text : Text) {rest : Text} (stops : ∀ next ∈ rest.head?, isPathPart next = false) :
    pathLength (text ++ rest) = pathLength text := by
  have noWord : ∀ next ∈ rest.head?, next.isWord = false := fun next member =>
    (Bool.or_eq_false_iff.mp (stops next member)).1
  rw [pathLength, pathLength, wordLength_append_stop text noWord, takeWhile_append_stop text stops,
    List.drop_append_of_le_length (wordLength_le text), constantsLength_append_stop _ _ stops]

/-- Whether a text is a receiver: a word, perhaps with constants after it. -/
structure IsReceiver (path : Text) : Prop where
  word : wordLength path ≠ 0
  whole : pathLength path = path.length

theorem IsReceiver.parts {path : Text} (receiver : IsReceiver path) : ∀ symbol ∈ path, isPathPart symbol = true := by
  obtain ⟨run, rest, pathEq, -, inside, stops⟩ := exists_run isPathPart path
  have whole := receiver.whole
  have within := pathLength_le run
  rw [pathEq, pathLength_append_stop run stops, List.length_append] at whole
  have nothing : rest = [] := List.length_eq_zero_iff.mp (by omega)
  rw [pathEq, nothing, List.append_nil]
  exact inside

theorem isPathPart_of_isGap {symbol : Symbol} (gap : isGap symbol = true) : isPathPart symbol = false := by
  rcases (isGap_iff symbol).mp gap with rfl | rfl <;> decide

theorem isPathPart_of_isWord {symbol : Symbol} (word : symbol.isWord = true) : isPathPart symbol = true :=
  Bool.or_eq_true_iff.mpr (Or.inl word)

theorem isPathPart_of_dotted {before after next : Text} {first : Symbol}
    (gaps : ∀ symbol ∈ before, isGap symbol = true)
    (member : first ∈ (before ++ .glyph '.' :: (after ++ next)).head?) : isPathPart first = false := by
  cases before with
  | nil =>
      cases member
      decide
  | cons gap others =>
      cases member
      exact isPathPart_of_isGap (gaps first (List.mem_cons_self ..))

/-- A receiver is read where it stands with a dot after it. -/
theorem receiver?_complete {path before after rest : Text} (receiver : IsReceiver path)
    (beforeGaps : ∀ symbol ∈ before, isGap symbol = true) (afterGaps : ∀ symbol ∈ after, isGap symbol = true)
    (stops : ∀ next ∈ rest.head?, isGap next = false) :
    receiver? (path ++ (before ++ .glyph '.' :: (after ++ rest))) =
      some (path.length, (path ++ (before ++ .glyph '.' :: after)).length) := by
  have partStops : ∀ next ∈ (before ++ .glyph '.' :: (after ++ rest)).head?, isPathPart next = false :=
    fun next member => isPathPart_of_dotted beforeGaps member
  have wordStops : ∀ next ∈ (before ++ .glyph '.' :: (after ++ rest)).head?, next.isWord = false :=
    fun next member => (Bool.or_eq_false_iff.mp (partStops next member)).1
  have dotStops : ∀ next ∈ (Symbol.glyph '.' :: (after ++ rest)).head?, isGap next = false := by
    intro next member
    cases member
    decide
  rw [receiver?_eq, wordLength_append_stop path wordStops, if_neg receiver.word, pathLength_append_stop path partStops,
    receiver.whole]
  simp only [List.drop_left, takeWhile_run beforeGaps dotStops, ← List.drop_drop, List.drop_one, List.head?_cons,
    List.tail_cons, takeWhile_run afterGaps stops, if_true, List.length_append, List.length_cons]
  congr 2
  omega

/-- Where a receiver is read, it stands with a dot after it. -/
theorem receiver?_sound {text : Text} {length skipped : Nat} (found : receiver? text = some (length, skipped)) :
    ∃ path before after rest, text = path ++ (before ++ .glyph '.' :: (after ++ rest)) ∧ IsReceiver path ∧
      (∀ symbol ∈ before, isGap symbol = true) ∧ (∀ symbol ∈ after, isGap symbol = true) ∧
      (∀ next ∈ rest.head?, isGap next = false) ∧
      length = path.length ∧ skipped = (path ++ (before ++ .glyph '.' :: after)).length := by
  rw [receiver?_eq] at found
  split at found
  · cases found
  rename_i word
  generalize sizeEq : pathLength text = size at found
  have within : size ≤ text.length := sizeEq ▸ pathLength_le text
  obtain ⟨path, tail, rfl, rfl⟩ : ∃ path tail, text = path ++ tail ∧ path.length = size :=
    ⟨text.take size, text.drop size, (List.take_append_drop size text).symm, List.length_take_of_le within⟩
  obtain ⟨before, dotted, rfl, beforeEq, beforeGaps, -⟩ := exists_run isGap tail
  simp only [List.drop_left, beforeEq, ← List.drop_drop] at found
  split at found
  · rename_i dot
    obtain ⟨below, rfl⟩ := List.head?_eq_some_iff.mp dot
    obtain ⟨after, rest, rfl, afterEq, afterGaps, stops⟩ := exists_run isGap below
    have partStops : ∀ next ∈ (before ++ .glyph '.' :: (after ++ rest)).head?, isPathPart next = false :=
      fun next member => isPathPart_of_dotted beforeGaps member
    have wordStops : ∀ next ∈ (before ++ .glyph '.' :: (after ++ rest)).head?, next.isWord = false :=
      fun next member => (Bool.or_eq_false_iff.mp (partStops next member)).1
    rw [pathLength_append_stop path partStops] at sizeEq
    rw [wordLength_append_stop path wordStops] at word
    simp only [List.drop_one, List.tail_cons, afterEq, Option.some.injEq, Prod.mk.injEq] at found
    obtain ⟨rfl, rfl⟩ := found
    refine ⟨path, before, after, rest, rfl, ⟨word, sizeEq⟩, beforeGaps, afterGaps, stops, rfl, ?_⟩
    simp only [List.length_append, List.length_cons]
    omega
  · cases found

/-! ### Heads -/

/-- What stands between `def` and the name, and the receiver in it. -/
inductive Lead : Option Text → Text → Prop where
  | plain {gap : Text} (nonempty : gap ≠ []) (gaps : ∀ symbol ∈ gap, isGap symbol = true) : Lead none gap
  | received {gap path before after : Text} (nonempty : gap ≠ []) (gaps : ∀ symbol ∈ gap, isGap symbol = true)
      (receiver : IsReceiver path) (beforeGaps : ∀ symbol ∈ before, isGap symbol = true)
      (afterGaps : ∀ symbol ∈ after, isGap symbol = true) :
      Lead (some path) (gap ++ (path ++ (before ++ .glyph '.' :: after)))

namespace Header

theorem parametersAt_append (front rest : Text) :
    parametersAt (front ++ rest) front.length =
      ((parametersAt rest 0).1, front.length + (parametersAt rest 0).2) := by
  simp only [parametersAt, List.drop_left, ← List.drop_drop, List.drop_zero, Nat.zero_add]
  split_ifs <;> simp [Nat.add_assoc]

/-- What is read after the name depends only on the text after the name. -/
theorem ofName_append (front name rest : Text) (receiver : Option Text) :
    ofName (front ++ (name ++ rest)) receiver front.length (front.length + name.length) =
      { name := name
        nameBegin := front.length
        nameEnd := front.length + name.length
        receiver := receiver
        parameters := (parametersAt rest 0).1
        headerEnd := front.length + name.length + (parametersAt rest 0).2
        endless := isEndless (rest.drop (parametersAt rest 0).2) } := by
  have taken : ((front ++ (name ++ rest)).take (front.length + name.length)).drop front.length = name := by
    rw [← List.append_assoc, ← List.length_append, List.take_left, List.drop_left]
  have parameters : parametersAt (front ++ (name ++ rest)) (front.length + name.length) =
      ((parametersAt rest 0).1, front.length + name.length + (parametersAt rest 0).2) := by
    rw [← List.append_assoc, ← List.length_append, parametersAt_append]
  have dropped : (front ++ (name ++ rest)).drop (front.length + name.length + (parametersAt rest 0).2) =
      rest.drop (parametersAt rest 0).2 := by
    rw [← List.drop_drop, ← List.append_assoc, ← List.length_append, List.drop_left]
  simp only [ofName, taken, parameters, dropped]

/-- The head that is read where `def`, a lead, a name and a rest stand. -/
def written (receiver : Option Text) (lead name rest : Text) : Header :=
  { name := name
    nameBegin := 3 + lead.length
    nameEnd := 3 + lead.length + name.length
    receiver := receiver
    parameters := (parametersAt rest 0).1
    headerEnd := 3 + lead.length + name.length + (parametersAt rest 0).2
    endless := isEndless (rest.drop (parametersAt rest 0).2) }

theorem ofName_eq_written (receiver : Option Text) (lead name rest : Text) :
    ofName ("def" ++ (lead ++ (name ++ rest))) receiver (3 + lead.length) (3 + lead.length + name.length) =
      written receiver lead name rest := by
  have front : ("def" ++ lead : Text).length = 3 + lead.length := by
    rw [List.length_append]
    rfl
  rw [← List.append_assoc, ← front, ofName_append, front]
  rfl

theorem exists_name {tail : Text} (named : nameLength tail ≠ 0) :
    ∃ name rest, tail = name ++ rest ∧ name ≠ [] ∧ nameLength tail = name.length := by
  have size := List.length_take_of_le (nameLength_le tail)
  refine ⟨tail.take (nameLength tail), tail.drop (nameLength tail), (List.take_append_drop _ _).symm, ?_, size.symm⟩
  intro nothing
  rw [nothing] at size
  exact named size.symm

theorem drop_lead (lead tail : Text) : ("def" ++ (lead ++ tail) : Text).drop (3 + lead.length) = tail := by
  rw [← List.drop_drop]
  exact List.drop_left

theorem plain?_eq (lead tail : Text) :
    plain? ("def" ++ (lead ++ tail)) (3 + lead.length) =
      if nameLength tail = 0 then none
      else some (ofName ("def" ++ (lead ++ tail)) none (3 + lead.length) (3 + lead.length + nameLength tail)) := by
  simp only [plain?, drop_lead]

/-- How a head is read after `def` and the gaps that follow it. -/
theorem read?_eq {gap tail : Text} (nonempty : gap ≠ []) (gaps : ∀ symbol ∈ gap, isGap symbol = true)
    (stops : ∀ next ∈ tail.head?, isGap next = false) :
    read? ("def" ++ (gap ++ tail)) =
      match receiver? tail with
      | none => plain? ("def" ++ (gap ++ tail)) (3 + gap.length)
      | some (length, skipped) =>
          let named := nameLength (tail.drop skipped)
          let nameBegin := 3 + gap.length + skipped
          if named = 0 then plain? ("def" ++ (gap ++ tail)) (3 + gap.length)
          else some (ofName ("def" ++ (gap ++ tail)) (some (tail.take length)) nameBegin (nameBegin + named)) := by
  have starts : Text.startsWith ("def" ++ (gap ++ tail)) "def" = true :=
    List.isPrefixOf_iff_prefix.mpr (List.prefix_append _ _)
  have dropped : ("def" ++ (gap ++ tail) : Text).drop 3 = gap ++ tail := rfl
  have positive : gap.length ≠ 0 := fun none => nonempty (List.length_eq_zero_iff.mp none)
  have after : ("def" ++ (gap ++ tail) : Text).drop (3 + gap.length) = tail := by
    rw [← List.drop_drop, dropped, List.drop_left]
  cases received : receiver? tail with
  | none =>
      simp only [read?, starts, dropped, takeWhile_run gaps stops, positive, Bool.not_true, decide_false,
        Bool.or_false, Bool.false_eq_true, if_false, after, received]
  | some found =>
      simp only [read?, starts, dropped, takeWhile_run gaps stops, positive, Bool.not_true, decide_false,
        Bool.or_false, Bool.false_eq_true, if_false, after, received, ← List.drop_drop]

/-- Whether no receiver with a name after it starts a text. -/
def Unreceived (tail : Text) : Prop :=
  ∀ length skipped, receiver? tail = some (length, skipped) → nameLength (tail.drop skipped) = 0

/-- Where a head is read, `def`, a lead and a name stand. -/
theorem read?_sound {text : Text} {header : Header} (found : read? text = some header) :
    ∃ lead name rest, text = "def" ++ (lead ++ (name ++ rest)) ∧ Lead header.receiver lead ∧ name ≠ [] ∧
      nameLength (name ++ rest) = name.length ∧ header = written header.receiver lead name rest ∧
      (header.receiver = none → Unreceived (name ++ rest)) := by
  obtain ⟨gap, tail, rfl, nonempty, gaps, stops⟩ :
      ∃ gap tail, text = "def" ++ (gap ++ tail) ∧ gap ≠ [] ∧ (∀ symbol ∈ gap, isGap symbol = true) ∧
        ∀ next ∈ tail.head?, isGap next = false := by
    rw [read?] at found
    split at found
    · cases found
    · rename_i opens
      simp only [Bool.or_eq_true, Bool.not_eq_true', decide_eq_true_eq, not_or, Bool.not_eq_false] at opens
      obtain ⟨below, rfl⟩ := List.isPrefixOf_iff_prefix.mp opens.1
      obtain ⟨gap, tail, rfl, gapEq, gaps, stops⟩ := exists_run isGap below
      refine ⟨gap, tail, rfl, ?_, gaps, stops⟩
      rintro rfl
      exact opens.2 (congrArg List.length gapEq)
  rw [read?_eq nonempty gaps stops] at found
  have plain : Unreceived tail → plain? ("def" ++ (gap ++ tail)) (3 + gap.length) = some header →
      ∃ lead name rest, "def" ++ (gap ++ tail) = "def" ++ (lead ++ (name ++ rest)) ∧ Lead header.receiver lead ∧
        name ≠ [] ∧ nameLength (name ++ rest) = name.length ∧ header = written header.receiver lead name rest ∧
        (header.receiver = none → Unreceived (name ++ rest)) := by
    intro unreceived found
    rw [plain?_eq] at found
    split at found
    · cases found
    · rename_i named
      cases found
      obtain ⟨name, rest, rfl, nameNonempty, length⟩ := exists_name named
      rw [length, ofName_eq_written]
      exact ⟨gap, name, rest, rfl, .plain nonempty gaps, nameNonempty, length, rfl, fun _ => unreceived⟩
  cases received : receiver? tail with
  | none =>
      rw [received] at found
      refine plain (fun length skipped same => ?_) found
      rw [received] at same
      cases same
  | some receiver =>
      obtain ⟨length, skipped⟩ := receiver
      simp only [received] at found
      split at found
      · rename_i unnamed
        refine plain (fun _ _ same => ?_) found
        rw [received] at same
        cases same
        exact unnamed
      · rename_i named
        cases found
        obtain ⟨path, before, after, later, rfl, isReceiver, beforeGaps, afterGaps, -, rfl, rfl⟩ :=
          receiver?_sound received
        obtain ⟨name, rest, dropped, nameNonempty, size⟩ := exists_name named
        have regrouped : path ++ (before ++ .glyph '.' :: (after ++ later)) =
            (path ++ (before ++ .glyph '.' :: after)) ++ later := by simp
        rw [regrouped, List.drop_left] at dropped size named ⊢
        subst dropped
        have receiverEq : (path ++ (before ++ .glyph '.' :: after) ++ (name ++ rest)).take path.length = path := by
          simp
        have read := ofName_eq_written (some path) (gap ++ (path ++ (before ++ .glyph '.' :: after))) name rest
        rw [List.append_assoc gap, @List.length_append _ gap, ← Nat.add_assoc] at read
        rw [size, receiverEq, read]
        exact ⟨_, name, rest, by simp, .received nonempty gaps isReceiver beforeGaps afterGaps, nameNonempty, size, rfl,
          fun plain => by cases plain⟩

private theorem head_not_gap {name rest : Text} (nonempty : name ≠ [])
    (named : nameLength (name ++ rest) = name.length) : ∀ next ∈ (name ++ rest).head?, isGap next = false := by
  obtain ⟨first, others, rfl⟩ := List.exists_cons_of_ne_nil nonempty
  intro next member
  cases member
  rw [Bool.eq_false_iff]
  intro gap
  rw [List.cons_append, nameLength_gap gap] at named
  cases named

/-- Where `def`, a lead and a name stand, a head is read.  Without a receiver, the name must not look like one. -/
theorem read?_complete {receiver : Option Text} {lead name rest : Text} (isLead : Lead receiver lead)
    (nonempty : name ≠ []) (named : nameLength (name ++ rest) = name.length)
    (unreceived : receiver = none → Unreceived (name ++ rest)) :
    read? ("def" ++ (lead ++ (name ++ rest))) = some (written receiver lead name rest) := by
  have positive : name.length ≠ 0 := fun none => nonempty (List.length_eq_zero_iff.mp none)
  have nameStops := head_not_gap nonempty named
  cases isLead with
  | plain gapNonempty gaps =>
      rw [read?_eq gapNonempty gaps nameStops]
      cases received : receiver? (name ++ rest) with
      | none => simp only [plain?_eq, named, if_neg positive, ofName_eq_written]
      | some found =>
          simp only [unreceived rfl _ _ received, if_true, plain?_eq, named, if_neg positive, ofName_eq_written]
  | @received gap path before after gapNonempty gaps isReceiver beforeGaps afterGaps =>
      have regrouped : gap ++ (path ++ (before ++ .glyph '.' :: after)) ++ (name ++ rest) =
          gap ++ (path ++ (before ++ .glyph '.' :: (after ++ (name ++ rest)))) := by simp
      have dropped : (path ++ (before ++ .glyph '.' :: (after ++ (name ++ rest)))).drop
          (path ++ (before ++ .glyph '.' :: after)).length = name ++ rest := by
        have whole : path ++ (before ++ .glyph '.' :: (after ++ (name ++ rest))) =
            (path ++ (before ++ .glyph '.' :: after)) ++ (name ++ rest) := by simp
        rw [whole, List.drop_left]
      have pathStops : ∀ next ∈ (path ++ (before ++ .glyph '.' :: (after ++ (name ++ rest)))).head?,
          isGap next = false := by
        intro next member
        cases path with
        | nil => exact absurd rfl isReceiver.word
        | cons first others =>
            cases member
            rw [Bool.eq_false_iff]
            intro gap
            have part := isReceiver.parts next (List.mem_cons_self ..)
            rw [isPathPart_of_isGap gap] at part
            cases part
      rw [regrouped, read?_eq gapNonempty gaps pathStops,
        receiver?_complete isReceiver beforeGaps afterGaps nameStops]
      have read := ofName_eq_written (some path) (gap ++ (path ++ (before ++ .glyph '.' :: after))) name rest
      rw [regrouped, @List.length_append _ gap, ← Nat.add_assoc] at read
      simp only [dropped, named, if_neg positive, List.take_left, read]

end Header

/-! ### Leads -/

theorem Lead.head {receiver : Option Text} {lead : Text} (isLead : Lead receiver lead) :
    ∃ gap others, lead = gap :: others ∧ isGap gap = true := by
  cases isLead with
  | plain nonempty gaps =>
      obtain ⟨gap, others, rfl⟩ := List.exists_cons_of_ne_nil nonempty
      exact ⟨gap, others, rfl, gaps gap (List.mem_cons_self ..)⟩
  | received nonempty gaps =>
      obtain ⟨gap, others, rfl⟩ := List.exists_cons_of_ne_nil nonempty
      exact ⟨gap, _, rfl, gaps gap (List.mem_cons_self ..)⟩

/-- The name starts after a gap or a dot. -/
theorem Lead.last {receiver : Option Text} {lead : Text} (isLead : Lead receiver lead) :
    ∃ others last, lead = others ++ [last] ∧ (isGap last = true ∨ last = .glyph '.') := by
  have afterGaps : ∀ {gap : Text}, gap ≠ [] → (∀ symbol ∈ gap, isGap symbol = true) →
      ∃ others last, gap = others ++ [last] ∧ (isGap last = true ∨ last = .glyph '.') := by
    intro gap nonempty gaps
    obtain ⟨others, last, rfl⟩ := (List.eq_nil_or_concat' gap).resolve_left nonempty
    exact ⟨others, last, rfl, Or.inl (gaps last (by simp))⟩
  cases isLead with
  | plain nonempty gaps => exact afterGaps nonempty gaps
  | @received gap path before after nonempty gaps receiver beforeGaps gapsAfter =>
      by_cases dotted : after = []
      · subst dotted
        exact ⟨gap ++ (path ++ before), .glyph '.', by simp, Or.inr rfl⟩
      · obtain ⟨others, last, rfl, isLast⟩ := afterGaps dotted gapsAfter
        exact ⟨gap ++ (path ++ (before ++ .glyph '.' :: others)), last, by simp, isLast⟩

theorem Lead.symbols {receiver : Option Text} {lead : Text} (isLead : Lead receiver lead) :
    ∀ symbol ∈ lead, isGap symbol = true ∨ isPathPart symbol = true ∨ symbol = .glyph '.' := by
  intro symbol member
  cases isLead with
  | plain nonempty gaps => exact Or.inl (gaps symbol member)
  | received nonempty gaps receiver beforeGaps afterGaps =>
      simp only [List.mem_append, List.mem_cons] at member
      rcases member with inGap | inPath | inBefore | rfl | inAfter
      · exact Or.inl (gaps symbol inGap)
      · exact Or.inr (Or.inl (receiver.parts symbol inPath))
      · exact Or.inl (beforeGaps symbol inBefore)
      · exact Or.inr (Or.inr rfl)
      · exact Or.inl (afterGaps symbol inAfter)

/-- A symbol that is no gap, part of a receiver or dot is not in a lead. -/
theorem Lead.not_mem {receiver : Option Text} {lead : Text} (isLead : Lead receiver lead) {symbol : Symbol}
    (noGap : isGap symbol = false) (noPart : isPathPart symbol = false) (noDot : symbol ≠ .glyph '.') :
    symbol ∉ lead := by
  intro member
  rcases isLead.symbols symbol member with gap | part | dot
  · rw [noGap] at gap
    cases gap
  · rw [noPart] at part
    cases part
  · exact noDot dot

/-- A dot is no lead, and no gaps make one of it. -/
private theorem dotted_not_headed {before later : Text} (gaps : ∀ symbol ∈ before, isGap symbol = true)
    {receiver : Option Text} {lead name rest : Text} (isLead : Lead receiver lead) (nonempty : name ≠ [])
    (named : nameLength (name ++ rest) = name.length) :
    before ++ .glyph '.' :: later ≠ lead ++ (name ++ rest) := by
  intro same
  have leadRun : ∀ {gap tail : Text}, (∀ symbol ∈ gap, isGap symbol = true) →
      (∀ next ∈ tail.head?, isGap next = false) → before ++ .glyph '.' :: later = gap ++ tail →
      .glyph '.' :: later = tail := by
    intro gap tail inGap stops whole
    have sameRun := congrArg (List.takeWhile isGap) whole
    rw [takeWhile_run gaps (fun next member => by cases member; decide), takeWhile_run inGap stops] at sameRun
    subst sameRun
    exact List.append_cancel_left whole
  cases isLead with
  | plain gapNonempty inGap =>
      have tail := leadRun inGap (Header.head_not_gap nonempty named) same
      rw [← tail, nameLength_dot] at named
      exact nonempty (List.length_eq_zero_iff.mp named.symm)
  | @received gap path before' after gapNonempty inGap isReceiver beforeGaps afterGaps =>
      cases path with
      | nil => exact isReceiver.word rfl
      | cons first others =>
          have part := isReceiver.parts first (List.mem_cons_self ..)
          rw [List.append_assoc] at same
          have tail := leadRun inGap (by
            intro next member
            cases member
            rw [Bool.eq_false_iff]
            intro gap
            rw [isPathPart_of_isGap gap] at part
            cases part) same
          obtain ⟨rfl, -⟩ := List.cons.inj tail
          cases part

/-- Inside `def` and a lead, a `d` can only stand in the lead. -/
private theorem inner_d {lead left right : Text} (split : "def" ++ lead = left ++ .glyph 'd' :: right)
    (after : left ≠ []) : ∃ front, lead = front ++ .glyph 'd' :: right := by
  match left with
  | [] => exact absurd rfl after
  | [first] => cases (List.cons.inj (List.cons.inj split).2).1
  | [first, second] => cases (List.cons.inj (List.cons.inj (List.cons.inj split).2).2).1
  | first :: second :: third :: front =>
      exact ⟨front, (List.cons.inj (List.cons.inj (List.cons.inj split).2).2).2⟩

/-- Between `def` and the name no other head starts. -/
theorem Lead.no_head {receiver : Option Text} {lead left right : Text} (isLead : Lead receiver lead)
    (split : "def" ++ lead = left ++ right) (after : left ≠ []) (before : right ≠ []) (tail : Text) :
    Header.read? (right ++ tail) = none := by
  cases found : Header.read? (right ++ tail) with
  | none => rfl
  | some header =>
      obtain ⟨other, name, rest, same, isOther, nonempty, named, -⟩ := Header.read?_sound found
      obtain ⟨first, others, rfl⟩ := List.exists_cons_of_ne_nil before
      have isD : first = .glyph 'd' := (List.cons.inj same).1
      subst isD
      obtain ⟨front, leadEq⟩ := inner_d split after
      cases isLead with
      | plain gapNonempty gaps => cases gaps (.glyph 'd') (by simp [leadEq])
      | @received gap path between afterDot gapNonempty gaps isReceiver betweenGaps afterGaps =>
          obtain ⟨within, -, pathEq⟩ := append_of_run gaps (by decide) leadEq.symm
          have noDot : .glyph 'd' ∉ between ++ .glyph '.' :: afterDot := by
            intro member
            rcases List.mem_append.mp member with inBetween | inAfter
            · cases betweenGaps _ inBetween
            · rcases List.mem_cons.mp inAfter with isDot | inGaps
              · cases isDot
              · cases afterGaps _ inGaps
          -- so the `d` starts a part of the receiver that reaches up to the dot
          obtain ⟨part, partEq, inPath⟩ : ∃ part, .glyph 'd' :: others = part ++ (between ++ .glyph '.' :: afterDot) ∧
              ∀ symbol ∈ part, isPathPart symbol = true := by
            rcases List.append_eq_append_iff.mp pathEq with ⟨more, -, dotted⟩ | ⟨part, pathParts, partEq⟩
            · exact absurd (by simp [dotted]) noDot
            · exact ⟨part, partEq, fun symbol member => isReceiver.parts symbol (by simp [pathParts, member])⟩
          have whole : part ++ (between ++ .glyph '.' :: (afterDot ++ tail)) = "def" ++ (other ++ (name ++ rest)) := by
            rw [← same, partEq]
            simp
          have sameRun := congrArg (List.takeWhile isPathPart) whole
          obtain ⟨otherGap, otherRest, otherEq, isGap⟩ := isOther.head
          rw [takeWhile_run inPath (fun next member => isPathPart_of_dotted betweenGaps member),
            takeWhile_run (by decide) (by
              intro next member
              rw [otherEq] at member
              cases member
              exact isPathPart_of_isGap isGap)] at sameRun
          rw [sameRun] at whole
          exact absurd (List.append_cancel_left whole) (dotted_not_headed betweenGaps isOther nonempty named)

/-- At an ordinary name no head starts. -/
theorem Ordinary.no_head {name rest : Text} (ordinary : Ordinary name)
    (named : nameLength (name ++ rest) = name.length) : Header.read? (name ++ rest) = none := by
  cases found : Header.read? (name ++ rest) with
  | none => rfl
  | some header =>
      obtain ⟨lead, other, below, same, isLead, -⟩ := Header.read?_sound found
      obtain ⟨gap, others, rfl, isGap⟩ := isLead.head
      have gapStops : ∀ next ∈ (gap :: others ++ (other ++ below)).head?, next.isWord = false := by
        intro next member
        cases member
        exact isWord_of_isGap isGap
      have keyword : ∀ symbol ∈ Text.ofString "def", symbol.isWord = true := by decide
      have sameRun := congrArg (List.takeWhile Symbol.isWord) same
      rw [takeWhile_run keyword gapStops] at sameRun
      cases ordinary with
      | word identifier free =>
          rw [takeWhile_run identifier.words (identifier.stops named)] at sameRun
          exact absurd sameRun free
      | assignment identifier =>
          rw [List.append_assoc, takeWhile_run identifier.words (by
            intro next member
            cases member
            decide)] at sameRun
          rw [sameRun, List.append_assoc] at same
          have isMark := (List.cons.inj (List.append_cancel_left same)).1
          rw [← isMark] at isGap
          cases isGap

end AccessorLint.Source
