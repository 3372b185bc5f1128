import Mathlib
import AccessorLint.Proofs.Blocks
import AccessorLint.Proofs.LineReading
set_option autoImplicit false

/-!
What the tokens of code are, and where the search for the end of a block stops.

A token is an identifier that ends where the name ends, a number, or a run of one symbol that belongs to neither.  No
token ends inside a name, and no head does, so an `end` that closes a block is a whole word.
-/

namespace AccessorLint.Source

open AccessorLint.Symbol (newline)

/-! ### The forms of tokens -/

/-- A symbol that starts neither an identifier nor a number is no part of a name. -/
theorem isNamePart_of_not_start {symbol : Symbol} (noName : symbol.isNameStart = false)
    (noDigit : symbol.isDecimal = false) : symbol.isNamePart = false := by
  cases symbol with
  | glyph char =>
      change (char.isAlpha || char == '_') = false at noName
      change Text.isDecimal char = false at noDigit
      change (char.isAlphanum || char == '_') = false
      rw [Bool.or_eq_false_iff] at noName
      have noAscii : char.isDigit = false := by
        rw [Bool.eq_false_iff]
        intro digit
        rw [isDecimal_of_isDigit digit] at noDigit
        cases noDigit
      rw [Char.isAlphanum, noName.1, noAscii, noName.2]
      rfl
  | stray low => rfl

/-- A token and the text after it. -/
inductive Token : Text → Text → Prop where
  | word {first : Symbol} {run rest : Text} (start : first.isNameStart = true)
      (parts : ∀ symbol ∈ run, symbol.isNamePart = true) (stops : ∀ next ∈ rest.head?, next.isNamePart = false)
      (unmarked : ∀ next ∈ rest.head?, next.isOneOf "?!" = false) : Token (first :: run) rest
  | marked {first mark : Symbol} {run rest : Text} (start : first.isNameStart = true)
      (parts : ∀ symbol ∈ run, symbol.isNamePart = true) (isMark : mark.isOneOf "?!" = true) :
      Token (first :: (run ++ [mark])) rest
  | number {first : Symbol} {run rest : Text} (noName : first.isNameStart = false) (digit : first.isDecimal = true)
      (parts : ∀ symbol ∈ run, (symbol.isWord || symbol = .glyph '.') = true)
      (stops : ∀ next ∈ rest.head?, (next.isWord || next = .glyph '.') = false) : Token (first :: run) rest
  | operator {first : Symbol} {more : Nat} {rest : Text} (noName : first.isNameStart = false)
      (noDigit : first.isDecimal = false) : Token (first :: List.replicate more first) rest

theorem exists_token {text : Text} (nonempty : text ≠ []) :
    ∃ token rest, text = token ++ rest ∧ tokenLength text = token.length ∧ Token token rest := by
  obtain ⟨first, others, rfl⟩ := List.exists_cons_of_ne_nil nonempty
  rw [tokenLength]
  split_ifs with start decimal dots double
  · obtain ⟨run, rest, rfl, runEq, parts, stops⟩ := exists_run Symbol.isNamePart others
    dsimp only
    rw [runEq, List.drop_left]
    cases rest with
    | nil => exact ⟨first :: run, [], by simp, by simp [Nat.add_comm], .word start parts stops (by simp)⟩
    | cons next later =>
        by_cases isMark : next.isOneOf "?!" = true
        · exact ⟨first :: (run ++ [next]), later, by simp, by simp [isMark]; omega, .marked start parts isMark⟩
        · refine ⟨first :: run, next :: later, rfl, by simp [isMark, Nat.add_comm], .word start parts stops ?_⟩
          intro symbol member
          cases member
          exact Bool.eq_false_iff.mpr isMark
  · obtain ⟨run, rest, rfl, runEq, parts, stops⟩ := exists_run (fun symbol => symbol.isWord || symbol = .glyph '.') others
    refine ⟨first :: run, rest, rfl, ?_, .number (Bool.eq_false_iff.mpr start) decimal parts stops⟩
    rw [runEq, List.length_cons, Nat.add_comm]
  · obtain ⟨isDot, more⟩ := Bool.and_eq_true_iff.mp dots
    obtain ⟨rest, rfl⟩ := List.isPrefixOf_iff_prefix.mp more
    rw [decide_eq_true_eq] at isDot
    subst isDot
    exact ⟨.glyph '.' :: List.replicate 2 (.glyph '.'), rest, rfl, rfl,
      .operator (Bool.eq_false_iff.mpr start) (Bool.eq_false_iff.mpr decimal)⟩
  · obtain ⟨rest, rfl⟩ := List.head?_eq_some_iff.mp (of_decide_eq_true (Bool.and_eq_true_iff.mp double).2)
    exact ⟨first :: List.replicate 1 first, rest, rfl, rfl,
      .operator (Bool.eq_false_iff.mpr start) (Bool.eq_false_iff.mpr decimal)⟩
  · exact ⟨first :: List.replicate 0 first, others, rfl, rfl,
      .operator (Bool.eq_false_iff.mpr start) (Bool.eq_false_iff.mpr decimal)⟩

/-- An identifier is read as one token, if neither the name nor a mark goes on after it. -/
theorem tokenLength_word {word rest : Text} (starts : ∃ first ∈ word.head?, first.isNameStart = true)
    (parts : ∀ symbol ∈ word, symbol.isNamePart = true) (stops : ∀ next ∈ rest.head?, next.isNamePart = false)
    (unmarked : ∀ next ∈ rest.head?, next.isOneOf "?!" = false) : tokenLength (word ++ rest) = word.length := by
  obtain ⟨first, head, start⟩ := starts
  obtain ⟨run, rfl⟩ := List.head?_eq_some_iff.mp head
  have inRun : ∀ symbol ∈ run, symbol.isNamePart = true := fun symbol member => parts symbol (by simp [member])
  have noMark : rest.head?.any (fun symbol => symbol.isOneOf "?!") = false := by
    cases rest with
    | nil => rfl
    | cons next later => exact unmarked next rfl
  rw [List.cons_append, tokenLength, if_pos start]
  dsimp only
  rw [takeWhile_run inRun stops, List.drop_left, noMark, List.length_cons]
  simp only [Bool.false_eq_true, if_false]
  omega

theorem letter_of_isNameStart {symbol : Symbol} (start : symbol.isNameStart = true) :
    (symbol.isLetter || symbol = .glyph '_') = true := by
  cases symbol with
  | glyph char =>
      change (char.isAlpha || char == '_') = true at start
      rcases Bool.or_eq_true_iff.mp start with alpha | same
      · rw [Bool.or_eq_true_iff]
        exact Or.inl (Text.isLetter_of_isAlpha alpha)
      · rw [eq_of_beq same]
        decide
  | stray low => cases start

/-! ### Ends of tokens -/

/-- Whether no name goes on from a text, given from its end, into the text after it. -/
def Apart (behind ahead : Text) : Prop :=
  ∀ last ∈ behind.head?, last.isNamePart = true → ∀ next ∈ ahead.head?, next.isNamePart = false

theorem apart_of_behind {last : Symbol} {behind ahead : Text} (outside : last.isNamePart = false) :
    Apart (last :: behind) ahead := by
  intro symbol member part
  cases member
  rw [outside] at part
  cases part

theorem apart_of_ahead {behind ahead : Text} (outside : ∀ next ∈ ahead.head?, next.isNamePart = false) :
    Apart behind ahead :=
  fun _ _ _ => outside

theorem isNamePart_of_not_isWord {symbol : Symbol} (outside : symbol.isWord = false) : symbol.isNamePart = false := by
  rw [Bool.eq_false_iff]
  intro part
  rw [isWord_of_isNamePart part] at outside
  cases outside

theorem isNamePart_of_isOneOf {symbol : Symbol} {symbols : String}
    (outside : ∀ char ∈ symbols.toList, (Symbol.glyph char).isNamePart = false) (member : symbol.isOneOf symbols = true) :
    symbol.isNamePart = false := by
  obtain ⟨char, inside, same⟩ := List.any_eq_true.mp member
  rw [eq_of_beq same]
  exact outside char inside

theorem tokenLength_marked {word : Text} {mark : Symbol} (starts : ∃ first ∈ word.head?, first.isNameStart = true)
    (parts : ∀ symbol ∈ word, symbol.isNamePart = true) (isMark : mark.isOneOf "?!" = true) (rest : Text) :
    tokenLength (word ++ mark :: rest) = word.length + 1 := by
  obtain ⟨first, head, start⟩ := starts
  obtain ⟨run, rfl⟩ := List.head?_eq_some_iff.mp head
  have inRun : ∀ symbol ∈ run, symbol.isNamePart = true := fun symbol member => parts symbol (by simp [member])
  have stops : ∀ next ∈ (mark :: rest).head?, next.isNamePart = false :=
    stops_cons (isNamePart_of_isOneOf (by simp; decide) isMark) rest
  rw [List.cons_append, tokenLength, if_pos start]
  dsimp only
  rw [takeWhile_run inRun stops, List.drop_left, List.head?_cons, Option.any_some, if_pos isMark, List.length_cons,
    Nat.add_comm 1]

theorem Token.apart {token rest : Text} (isToken : Token token rest) (behind : Text) :
    Apart (token.reverse ++ behind) rest := by
  cases isToken with
  | word start parts stops unmarked => exact apart_of_ahead stops
  | marked start parts isMark =>
      rw [List.reverse_cons, List.reverse_append]
      exact apart_of_behind (isNamePart_of_isOneOf (by simp; decide) isMark)
  | number noName digit parts stops =>
      apply apart_of_ahead
      intro next member
      exact isNamePart_of_not_isWord (Bool.or_eq_false_iff.mp (stops next member)).1
  | @operator first more rest noName noDigit =>
      have repeated : (first :: List.replicate more first).reverse = first :: List.replicate more first := by
        rw [← List.replicate_succ, List.reverse_replicate]
      rw [repeated]
      exact apart_of_behind (isNamePart_of_not_start noName noDigit)

/-- The search for a closing bracket ends at one, or at the end of the text. -/
theorem closingSpan_cases (opening closing : Symbol) (depth : Int) (text : Text) :
    (∃ front back, text = front ++ closing :: back ∧ closingSpan opening closing depth text = front.length) ∨
      closingSpan opening closing depth text = text.length := by
  have cases := closingSpan_append opening closing depth text
  rcases cases with ⟨front, back, textEq, same⟩ | ⟨inner, same⟩
  · have found := same []
    rw [List.append_nil] at found
    exact Or.inl ⟨front, back, textEq, found⟩
  · have ended := same []
    rw [List.append_nil] at ended
    exact Or.inr ended

private theorem head_of_bare {line : Text}
    (bare : ((Text.trimLeft line).isEmpty || (Text.trimLeft line).head? = some (.glyph '=')) = true) :
    ∀ first ∈ line.head?, first.isNamePart = false := by
  intro first member
  obtain ⟨others, rfl⟩ := List.head?_eq_some_iff.mp member
  by_cases blank : first.isBlank = true
  · exact isNamePart_of_isBlank blank
  · have kept : Text.trimLeft (first :: others) = first :: others := List.dropWhile_cons_of_neg blank
    rw [kept] at bare
    have isEquals : first = .glyph '=' := by simpa using bare
    rw [isEquals]
    decide

/-- The parameters of a head do not end inside a name. -/
theorem Header.parametersAt_apart (behind rest : Text) :
    Apart ((rest.take (parametersAt rest 0).2).reverse ++ behind) (rest.drop (parametersAt rest 0).2) := by
  obtain ⟨gaps, tail, rfl, gapsEq, inGaps, -⟩ := exists_run isGap rest
  obtain ⟨line, below, rfl, lineEq, -, stops⟩ := exists_run (fun symbol => !symbol.isOneOf "\n;") tail
  have ends : ∀ next ∈ below.head?, next.isNamePart = false := by
    intro next member
    have isEnd : next.isOneOf "\n;" = true := by simpa using stops next member
    exact isNamePart_of_isOneOf (by simp; decide) isEnd
  simp only [parametersAt, List.drop_zero, Nat.zero_add, gapsEq, List.drop_left, lineEq]
  split_ifs with opens bare
  · rcases closingSpan_cases (.glyph '(') (.glyph ')') 0 (line ++ below) with ⟨front, back, tailEq, found⟩ | ended
    · have whole : gaps ++ (line ++ below) = (gaps ++ (front ++ [.glyph ')'])) ++ back := by simp [tailEq]
      have size : gaps.length + ((line ++ below).take (front.length + 1)).length =
          (gaps ++ (front ++ [Symbol.glyph ')'])).length := by simp [tailEq]
      rw [found, size, whole, List.take_left, List.reverse_append, List.reverse_append]
      exact apart_of_behind (by decide)
    · rw [ended, List.take_of_length_le (Nat.le_succ _), ← List.length_append, List.drop_length]
      exact apart_of_ahead (by simp)
  · apply apart_of_ahead
    intro next member
    cases gaps with
    | cons gap others =>
        cases member
        exact isNamePart_of_isBlank (isBlank_of_isGap (inGaps next (List.mem_cons_self ..)))
    | nil =>
        cases line with
        | nil => exact ends next member
        | cons first others => exact head_of_bare bare next member
  · apply apart_of_ahead
    rw [← List.length_append, ← List.append_assoc, List.drop_left]
    exact ends

theorem Header.headerEnd_apart {text : Text} {header : Header} (found : read? text = some header) (behind : Text) :
    Apart ((text.take header.headerEnd).reverse ++ behind) (text.drop header.headerEnd) := by
  obtain ⟨lead, name, rest, rfl, -, -, -, headerEq, -⟩ := read?_sound found
  have front : ("def" ++ (lead ++ name) : Text).length = 3 + lead.length + name.length := by
    rw [List.length_append, List.length_append, Nat.add_assoc]
    rfl
  have size : header.headerEnd = ("def" ++ (lead ++ name) : Text).length + (parametersAt rest 0).2 := by
    rw [front, headerEq]
    rfl
  have whole : ("def" ++ (lead ++ (name ++ rest)) : Text) = ("def" ++ (lead ++ name)) ++ rest := by simp
  rw [size, whole, List.take_length_add_append, List.drop_length_add_append, List.reverse_append, List.append_assoc]
  exact parametersAt_apart _ rest

/-! ### Readings -/

namespace Block

/-- A reading closes a block at the word `end` only, and where it goes on it stops outside names. -/
theorem readKeyword_closed {block : Block} {word text : Text} {length : Nat}
    (closed : block.readKeyword word text = .closed length) : word = "end" ∧ block.inner = 0 ∧ length = 3 := by
  unfold readKeyword at closed
  split_ifs at closed with isEnd isDef
  · subst isEnd
    cases inner : block.inner with
    | zero =>
        rw [inner] at closed
        cases closed
        exact ⟨rfl, rfl, rfl⟩
    | succ inner =>
        rw [inner] at closed
        cases closed
  · split at closed <;> cases closed

theorem readKeyword_goesOn {block next : Block} {word text : Text} {length : Nat}
    (goesOn : block.readKeyword word text = .goesOn next length) :
    length = word.length ∨ ∃ header, Header.read? text = some header ∧ length = header.headerEnd := by
  unfold readKeyword at goesOn
  split_ifs at goesOn with isEnd isDef
  case pos =>
      split at goesOn
      · cases goesOn
      · cases goesOn
        exact Or.inl rfl
  case pos =>
      split at goesOn
      · cases goesOn
        exact Or.inl rfl
      · rename_i header found
        cases goesOn
        exact Or.inr ⟨header, found, rfl⟩
  all_goals
    cases goesOn
    exact Or.inl rfl

theorem read_token (block : Block) (behind : Text) {token rest : Text}
    (size : tokenLength (token ++ rest) = token.length) :
    block.read behind (token ++ rest) =
      if token = [newline] || token = ";" then
        .goesOn { block with atStatement := true, awaitsDo := false } token.length
      else if !(token.head?.any fun symbol => symbol.isLetter || symbol = .glyph '_') then
        .goesOn { block with atStatement := !valueEnds.contains token && !token.head?.any Symbol.isDigit } token.length
      else if !isKeywordPlace behind rest then .goesOn { block with atStatement := false } token.length
      else block.readKeyword token (token ++ rest) := by
  simp only [read, size, List.take_left, List.drop_left]

theorem not_separator {first : Symbol} (noNewline : first ≠ newline) (noSemicolon : first ≠ .glyph ';') (others : Text) :
    ¬(first :: others = [newline] || first :: others = ";") = true := by
  rw [Bool.or_eq_true, decide_eq_true_eq, decide_eq_true_eq]
  rintro (same | same)
  · exact noNewline (List.cons.inj same).1
  · exact noSemicolon (List.cons.inj same).1

/-- A token that starts like a name is a keyword where one may stand, and nothing special elsewhere. -/
theorem read_word (block : Block) (behind : Text) {first : Symbol} {others rest : Text}
    (size : tokenLength (first :: others ++ rest) = (first :: others).length) (start : first.isNameStart = true) :
    block.read behind (first :: others ++ rest) =
      if isKeywordPlace behind rest then block.readKeyword (first :: others) (first :: others ++ rest)
      else .goesOn { block with atStatement := false } (first :: others).length := by
  have letter := letter_of_isNameStart start
  have goesOn : ¬(first :: others = [newline] || first :: others = ";") = true :=
    not_separator (Symbol.ne_of_property start (by decide)) (Symbol.ne_of_property start (by decide)) others
  rw [read_token block behind size, if_neg goesOn, List.head?_cons, Option.any_some, letter]
  cases isKeywordPlace behind rest <;> rfl

theorem read_closed {block : Block} {behind token rest : Text} {length : Nat}
    (size : tokenLength (token ++ rest) = token.length)
    (closed : block.read behind (token ++ rest) = .closed length) :
    token = "end" ∧ length = 3 ∧ block.inner = 0 ∧ isKeywordPlace behind rest = true := by
  rw [read_token block behind size] at closed
  split_ifs at closed with ends noWord noPlace
  obtain ⟨isEnd, outermost, three⟩ := readKeyword_closed closed
  exact ⟨isEnd, three, outermost, by simpa using noPlace⟩

/-- Reading goes on after the token, or after the head whose `def` the token is. -/
theorem read_goesOn {block next : Block} {behind token rest : Text} {length : Nat}
    (size : tokenLength (token ++ rest) = token.length)
    (goesOn : block.read behind (token ++ rest) = .goesOn next length) :
    length = token.length ∨ ∃ header, Header.read? (token ++ rest) = some header ∧ length = header.headerEnd := by
  rw [read_token block behind size] at goesOn
  split_ifs at goesOn with ends noWord noPlace
  · cases goesOn
    exact Or.inl rfl
  · cases goesOn
    exact Or.inl rfl
  · cases goesOn
    exact Or.inl rfl
  · exact readKeyword_goesOn goesOn

theorem read_apart {block next : Block} {behind text : Text} {length : Nat} (nonempty : text ≠ [])
    (goesOn : block.read behind text = .goesOn next length) (far : Text) :
    Apart ((text.take length).reverse ++ far) (text.drop length) := by
  obtain ⟨token, rest, rfl, size, isToken⟩ := exists_token nonempty
  rcases read_goesOn size goesOn with rfl | ⟨header, found, rfl⟩
  · rw [List.take_left, List.drop_left]
    exact isToken.apart far
  · exact Header.headerEnd_apart found far

end Block

/-! ### Where a block ends -/

/-- Whether the keyword `end` stands between what is behind it and what follows it: no name goes on into it or out of
it, and it is no method name, symbol, hash key or variable. -/
structure EndKeyword (behind after : Text) : Prop where
  place : isKeywordPlace behind after = true
  starts : ∀ last ∈ behind.head?, last.isNamePart = false
  stops : ∀ next ∈ after.head?, next.isNamePart = false
  unmarked : ∀ next ∈ after.head?, next.isOneOf "?!" = false

theorem Token.end_stops {rest : Text} (isToken : Token "end" rest) :
    (∀ next ∈ rest.head?, next.isNamePart = false) ∧ ∀ next ∈ rest.head?, next.isOneOf "?!" = false := by
  generalize tokenEq : ("end" : Text) = token at isToken
  cases isToken with
  | word start parts stops unmarked => exact ⟨stops, unmarked⟩
  | @marked first mark run rest start parts isMark =>
      have last := congrArg List.getLast? tokenEq
      rw [List.getLast?_cons, List.getLast?_concat] at last
      cases last
      cases isMark
  | number noName digit =>
      rw [← (List.cons.inj tokenEq).1] at noName
      cases noName
  | operator noName noDigit =>
      rw [← (List.cons.inj tokenEq).1] at noName
      cases noName

theorem isFiller_apart {filler behind text : Text} (fills : ∀ symbol ∈ filler, isFiller symbol = true)
    (apart : Apart behind (filler ++ text)) : Apart (filler.reverse ++ behind) text := by
  rcases List.eq_nil_or_concat' filler with rfl | ⟨others, last, rfl⟩
  · exact apart
  · rw [List.reverse_append]
    have blank := (Bool.and_eq_true_iff.mp (fills last (by simp))).1
    exact apart_of_behind (isNamePart_of_isBlank blank)

namespace Block

/-- The search for the end of a block ends after a keyword `end`, or at the end of the code. -/
theorem extent_closes (block : Block) {behind ahead : Text} (apart : Apart behind ahead) :
    block.extent behind ahead = ahead.length ∨
      ∃ left after, ahead = left ++ ("end" ++ after) ∧ block.extent behind ahead = left.length + 3 ∧
        EndKeyword (left.reverse ++ behind) after := by
  induction size : ahead.length using Nat.strong_induction_on generalizing block behind ahead with
  | _ length ih =>
      obtain ⟨filler, text, rfl, -, fills, stops⟩ := exists_run isFiller ahead
      have outside := isFiller_apart fills apart
      rw [extent_eq block behind filler text fills stops]
      by_cases ended : text = []
      · left
        rw [if_pos ended, ← size, ended, List.append_nil]
      · rw [if_neg ended]
        cases reading : block.read (filler.reverse ++ behind) text with
        | closed length =>
            right
            obtain ⟨token, rest, rfl, tokenSize, isToken⟩ := exists_token ended
            obtain ⟨rfl, rfl, -, place⟩ := read_closed tokenSize reading
            have sides := isToken.end_stops
            refine ⟨filler, rest, rfl, rfl, place, ?_, sides.1, sides.2⟩
            intro last member
            rw [Bool.eq_false_iff]
            intro part
            cases outside last member part (.glyph 'e') rfl
        | goesOn next length =>
            have bounds := block.read_bounds (filler.reverse ++ behind) ended
            rw [reading] at bounds
            have positive : 0 < length := bounds.1
            have within : length ≤ text.length := bounds.2
            rw [List.length_append] at size
            have dropped := List.length_drop (i := length) (l := text)
            have apartNext := read_apart ended reading (filler.reverse ++ behind)
            rcases ih (text.drop length).length (by omega) next apartNext rfl with all | ⟨left, after, textEq, found, closes⟩
            · left
              dsimp only
              omega
            · right
              refine ⟨filler ++ (text.take length ++ left), after, ?_, ?_, ?_⟩
              · rw [List.append_assoc, List.append_assoc, ← textEq, List.take_append_drop]
              · dsimp only
                rw [found, List.length_append, List.length_append, List.length_take_of_le within]
                omega
              · simpa using closes

end Block

end AccessorLint.Source
