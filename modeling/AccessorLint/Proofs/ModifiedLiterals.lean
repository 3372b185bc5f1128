import Mathlib
import AccessorLint.Proofs.Rendering
set_option autoImplicit false

/-!
Literals before a modifier.

The copy of a text shows the delimiters of a literal with blanks between them.  Whether a word after the literal modifies
it or opens a block is decided by the last token that is left: some closing delimiters end a value, and after the others
a statement seems to start.
-/

namespace AccessorLint.Source

open AccessorLint.Symbol (newline)

/-! ### Literals -/

/-- A literal as it is written: a body between an opener and a closing delimiter, or a symbol after `?`. -/
inductive Literal where
  | enclosed (delimiters : Delimiters) (opener body : Text)
  | character (symbol : Symbol)

/-- Whether a closing delimiter after a body is read as the end of a value. -/
def closesValue (closing : Symbol) (body : Text) : Bool :=
  closing.isOneOf ")]\x7d\"'`_" || (closing = .glyph ':' && body.isEmpty)

namespace Literal

def text : Literal → Text
  | enclosed delimiters opener body => opener ++ (body ++ [delimiters.closing])
  | character symbol => [.glyph '?', symbol]

/-- What the copy of a text shows for a literal. -/
def shown : Literal → Text
  | enclosed delimiters opener body => opener ++ (body.map hidden ++ [delimiters.closing])
  | character symbol => [.glyph '?', hidden symbol]

/-- Whether the literal is read as such, and to its end, between the text behind it and the text after it. -/
def Stands (behind after : Text) : Literal → Prop
  | enclosed delimiters opener body =>
      Opening.read behind (opener ++ (body ++ delimiters.closing :: after)) = .literal delimiters opener.length ∧
        delimiters.bodyLength (body ++ delimiters.closing :: after) = body.length
  | character symbol => Opening.read behind (.glyph '?' :: symbol :: after) = .character

def endsValue : Literal → Bool
  | enclosed delimiters _ body => closesValue delimiters.closing body
  | character _ => false

theorem shown_length (literal : Literal) : literal.shown.length = literal.text.length := by
  cases literal with
  | enclosed delimiters opener body => simp [shown, text]
  | character symbol => rfl

end Literal

/-- What may stand up to the opening delimiter of a literal, and including it. -/
inductive Opener (opening : Symbol) : Text → Prop where
  | bare : Opener opening [opening]
  | percent : Opener opening [.glyph '%', opening]
  | kind {letter : Symbol} (isKind : letter.isOneOf "qQwWiIrsx" = true) : Opener opening [.glyph '%', letter, opening]

theorem Opener.of_read {behind opener rest : Text} {delimiters : Delimiters}
    (reading : Opening.read behind (opener ++ rest) = .literal delimiters opener.length) :
    Opener delimiters.opening opener ∧ delimiters.closing = closingOf delimiters.opening ∧
      delimiters.opening.isAlphanumeric = false ∧ delimiters.opening.isBlank = false := by
  cases ahead : opener ++ rest with
  | nil =>
      rw [ahead] at reading
      cases reading
  | cons symbol after =>
      have opens := Opening.read_opens behind symbol after
      rw [← ahead, reading] at opens
      have front : opener = (symbol :: after).take opener.length := by rw [← ahead, List.take_left]
      generalize opener.length = length at opens front
      cases opens with
      | quoted quote =>
          rw [front]
          refine ⟨.bare, ?_⟩
          rcases (isQuote_iff symbol).mp quote with rfl | rfl | rfl <;> decide
      | percent same _ _ found =>
          obtain ⟨noWord, noBlank, closing, ⟨rfl, first⟩ | ⟨letter, isKind, rfl, both⟩⟩ := percentLiteral?_shape found
          · rw [front, same, List.take_succ_cons, first]
            exact ⟨.percent, closing, noWord, noBlank⟩
          · rw [front, same, List.take_succ_cons, both]
            exact ⟨.kind isKind, closing, noWord, noBlank⟩
      | regex same =>
          rw [front, same]
          exact ⟨.bare, by decide⟩

/-! ### Tokens of what is shown -/

theorem isWord_of_not_isAlphanumeric {symbol : Symbol} (noWord : symbol.isAlphanumeric = false)
    (noUnderscore : symbol ≠ .glyph '_') : symbol.isWord = false := by
  cases symbol with
  | glyph char =>
      have other : char ≠ '_' := fun same => noUnderscore (same ▸ rfl)
      change (Text.isAlphanumeric char || char == '_') = false
      rw [show Text.isAlphanumeric char = false from noWord, beq_false_of_ne other]
      rfl
  | stray low => rfl

/-- Outside words there are no letters, digits and underscores. -/
theorem not_isWord_classes {symbol : Symbol} (outside : symbol.isWord = false) :
    (symbol.isLetter || symbol = .glyph '_') = false ∧ symbol.isDecimal = false ∧ symbol.isDigit = false := by
  cases symbol with
  | glyph char =>
      change (Text.isLetter char || (Text.isDecimal char || Text.markedDigits.holds char.toNat) ||
        Text.otherNumerals.holds char.toNat || char == '_') = false at outside
      simp only [Bool.or_eq_false_iff, beq_eq_false_iff_ne] at outside
      obtain ⟨⟨⟨noLetter, noDecimal, noMarked⟩, -⟩, noUnderscore⟩ := outside
      refine ⟨?_, noDecimal, ?_⟩
      · rw [Bool.or_eq_false_iff, decide_eq_false_iff_not]
        exact ⟨noLetter, fun same => noUnderscore (Symbol.glyph.inj same)⟩
      · change (Text.isDecimal char || Text.markedDigits.holds char.toNat) = false
        rw [noDecimal, noMarked]
        rfl
  | stray low => exact ⟨rfl, rfl, rfl⟩

theorem AsciiName.append_underscore {word : Text} (name : AsciiName word) : AsciiName (word ++ [.glyph '_']) where
  starts := by
    obtain ⟨first, member, start⟩ := name.starts
    exact ⟨first, List.head?_append_of_ne_nil _ name.identifier.ne_nil ▸ member, start⟩
  parts := by
    intro symbol member
    rcases List.mem_append.mp member with inside | last
    · exact name.parts symbol inside
    · rw [List.mem_singleton.mp last]
      decide

theorem closingOf_cases (opening : Symbol) :
    closingOf opening = opening ∨ (closingOf opening).isOneOf ")]\x7d>" = true := by
  unfold closingOf
  split_ifs
  · exact Or.inr rfl
  · exact Or.inr rfl
  · exact Or.inr rfl
  · exact Or.inr rfl
  · exact Or.inl rfl

theorem closingOf_outside {opening : Symbol} (noWord : opening.isAlphanumeric = false)
    (noBlank : opening.isBlank = false) :
    (closingOf opening).isAlphanumeric = false ∧ (closingOf opening).isBlank = false := by
  rcases closingOf_cases opening with same | bracket
  · rw [same]
    exact ⟨noWord, noBlank⟩
  · have among : closingOf opening = .glyph ')' ∨ closingOf opening = .glyph ']' ∨ closingOf opening = .glyph '\x7d' ∨
        closingOf opening = .glyph '>' := by simpa [Symbol.isOneOf] using bracket
    rcases among with same | same | same | same <;> rw [same] <;> decide

theorem hidden_cases (symbol : Symbol) : hidden symbol = newline ∨ hidden symbol = .glyph ' ' := by
  unfold hidden
  split_ifs
  · exact Or.inl rfl
  · exact Or.inr rfl

/-- Whether the search for the end of a block gets over a text before a rest, wherever the text stands. -/
def Passes (inner : Nat) (first last : Bool) (text rest : Text) : Prop :=
  ∀ behind, Search.Reaches ⟨⟨inner, first, false⟩, behind, text ++ rest⟩
    ⟨⟨inner, last, false⟩, text.reverse ++ behind, rest⟩

namespace Passes

variable {inner : Nat} {first second third : Bool} {left right rest : Text}

theorem trans (before : Passes inner first second left (right ++ rest)) (after : Passes inner second third right rest) :
    Passes inner first third (left ++ right) rest := by
  intro behind
  rw [List.append_assoc, List.reverse_append, List.append_assoc]
  exact (before behind).trans (after _)

theorem of_read {token : Text} (nonempty : token ≠ []) (visible : ∀ symbol ∈ token.head?, isFiller symbol = false)
    (reading : ∀ behind, Block.read ⟨inner, first, false⟩ behind (token ++ rest) =
      .goesOn ⟨inner, second, false⟩ token.length) : Passes inner first second token rest := by
  intro behind
  have more : token ++ rest ≠ [] := fun empty => nonempty (List.append_eq_nil_iff.mp empty).1
  have starts : ∀ symbol ∈ (token ++ rest).head?, isFiller symbol = false := by
    rw [List.head?_append_of_ne_nil _ nonempty]
    exact visible
  have step := Search.Step.token more starts (reading behind)
  rw [List.take_left, List.drop_left] at step
  exact .head step (.refl _)

/-- A token outside names says by itself whether a statement starts after it. -/
theorem of_operator {symbol : Symbol} {more : Text} (outside : symbol.isWord = false) (visible : isFiller symbol = false)
    (size : tokenLength ((symbol :: more) ++ rest) = (symbol :: more).length) :
    Passes inner first (!valueEnds.contains (symbol :: more)) (symbol :: more) rest := by
  obtain ⟨noLetter, -, noDigit⟩ := not_isWord_classes outside
  apply of_read (List.cons_ne_nil _ _)
  · intro other member
    cases member
    exact visible
  · intro behind
    rw [Block.read_token _ behind size]
    simp only [List.head?_cons, Option.any_some, noLetter, noDigit, Bool.not_false, Bool.and_true, if_true]
    split_ifs with ends
    · have starts : valueEnds.contains (symbol :: more) = false := by
        rcases Bool.or_eq_true_iff.mp ends with isNewline | isSemicolon
        · rw [of_decide_eq_true isNewline]
          decide
        · rw [of_decide_eq_true isSemicolon]
          decide
      rw [starts]
      rfl
    · rfl

/-- A symbol outside names is a token, if it makes no pair with the next one. -/
theorem symbol {symbol : Symbol} (outside : symbol.isWord = false) (visible : isFiller symbol = false)
    (alone : symbol.isOneOf ":.&|" = true → rest.head? ≠ some symbol) :
    Passes inner first (!valueEnds.contains [symbol]) [symbol] rest := by
  apply of_operator outside visible
  have noDots : ¬(symbol = .glyph '.' && Text.startsWith rest "..") = true := by
    intro dots
    obtain ⟨isDot, more⟩ := Bool.and_eq_true_iff.mp dots
    obtain ⟨later, rfl⟩ := List.isPrefixOf_iff_prefix.mp more
    rw [of_decide_eq_true isDot] at alone
    exact alone rfl rfl
  have noPair : ¬(symbol.isOneOf ":.&|" && rest.head? = some symbol) = true := by
    intro pair
    obtain ⟨pairs, same⟩ := Bool.and_eq_true_iff.mp pair
    exact alone pairs (of_decide_eq_true same)
  have noName : ¬symbol.isNameStart = true := by
    intro start
    rw [Symbol.isWord_of_isNameStart start] at outside
    cases outside
  change tokenLength (symbol :: rest) = 1
  rw [tokenLength, if_neg noName, (not_isWord_classes outside).2.1, if_neg Bool.false_ne_true, if_neg noDots,
    if_neg noPair]

theorem pair {symbol : Symbol} (pairs : symbol.isOneOf ":.&|" = true) (alone : rest.head? ≠ some symbol) :
    Passes inner first (!valueEnds.contains [symbol, symbol]) [symbol, symbol] rest := by
  have among : symbol = .glyph ':' ∨ symbol = .glyph '.' ∨ symbol = .glyph '&' ∨ symbol = .glyph '|' := by
    simpa [Symbol.isOneOf] using pairs
  have noThird : ¬(symbol = .glyph '.' && Text.startsWith (symbol :: rest) "..") = true := by
    intro dots
    obtain ⟨isDot, more⟩ := Bool.and_eq_true_iff.mp dots
    obtain ⟨later, same⟩ := List.isPrefixOf_iff_prefix.mp more
    rw [of_decide_eq_true isDot] at alone
    rw [← (List.cons.inj same).2] at alone
    exact alone rfl
  have outside : symbol.isWord = false ∧ isFiller symbol = false ∧ symbol.isNameStart = false := by
    rcases among with rfl | rfl | rfl | rfl <;> decide
  apply of_operator outside.1 outside.2.1
  change tokenLength (symbol :: symbol :: rest) = 2
  rw [tokenLength, outside.2.2, if_neg Bool.false_ne_true, (not_isWord_classes outside.1).2.1, if_neg Bool.false_ne_true,
    if_neg noThird, pairs, if_pos (by simp)]

/-- After a word that is not reserved no statement starts. -/
theorem word {token : Text} (starts : ∃ symbol ∈ token.head?, symbol.isNameStart = true) (free : token ∉ reservedWords)
    (size : tokenLength (token ++ rest) = token.length) : Passes inner first false token rest := by
  obtain ⟨symbol, member, start⟩ := starts
  obtain ⟨others, rfl⟩ := List.head?_eq_some_iff.mp member
  apply of_read (List.cons_ne_nil _ _)
  · intro other same
    cases same
    rw [isFiller, Symbol.isBlank_of_isWord (Symbol.isWord_of_isNameStart start)]
    rfl
  · exact fun behind => Block.read_unreserved _ behind size start free

/-- Blanks are passed, and after a newline a statement starts. -/
theorem blanks (inner : Nat) (first : Bool) (body rest : Text) :
    ∃ last, (first = true → last = true) ∧ Passes inner first last (body.map hidden) rest := by
  induction body generalizing first with
  | nil => exact ⟨first, id, fun _ => .refl _⟩
  | cons symbol others ih =>
      by_cases isNewline : symbol = newline
      · obtain ⟨last, stays, passes⟩ := ih true
        have line : Passes inner first true [newline] (others.map hidden ++ rest) := fun behind => .line _ behind _
        have shows : (symbol :: others).map hidden = [newline] ++ others.map hidden := by
          rw [isNewline]
          rfl
        rw [shows]
        exact ⟨last, fun _ => stays rfl, line.trans passes⟩
      · obtain ⟨last, stays, passes⟩ := ih first
        have space : Passes inner first first [.glyph ' '] (others.map hidden ++ rest) :=
          fun behind => .head (.filler (by decide)) (.refl _)
        have shows : (symbol :: others).map hidden = [.glyph ' '] ++ others.map hidden := by
          rw [List.map_cons, hidden, if_neg isNewline]
          rfl
        rw [shows]
        exact ⟨last, stays, space.trans passes⟩

/-- A closing delimiter says by itself whether a statement starts after it. -/
theorem closing {symbol : Symbol} (noWord : symbol.isAlphanumeric = false) (noBlank : symbol.isBlank = false) :
    Passes inner first (!symbol.isOneOf ")]\x7d\"'`_") [symbol] (.glyph ' ' :: rest) := by
  by_cases isUnderscore : symbol = .glyph '_'
  · subst isUnderscore
    exact word (by decide) (by decide) (tokenLength_word (by decide) (by decide) (stops_cons (by decide) _)
      (stops_cons (by decide) _))
  · have outside := isWord_of_not_isAlphanumeric noWord isUnderscore
    have visible : isFiller symbol = false := by rw [isFiller, noBlank, Bool.false_and]
    have alone : symbol.isOneOf ":.&|" = true → (Symbol.glyph ' ' :: rest).head? ≠ some symbol := by
      rintro pairs same
      rw [← Option.some.inj same] at noBlank
      cases noBlank
    have same : valueEnds.contains [symbol] = symbol.isOneOf ")]\x7d\"'`_" := by
      rw [Bool.eq_iff_iff]
      simp [valueEnds, Symbol.isOneOf, Text.ofString, isUnderscore]
    rw [← same]
    exact Passes.symbol outside visible alone

/-- The blanks between the delimiters do not matter. -/
theorem closed {symbol : Symbol} (noWord : symbol.isAlphanumeric = false) (noBlank : symbol.isBlank = false)
    {body : Text} (before : Passes inner first second left (body.map hidden ++ [symbol] ++ .glyph ' ' :: rest)) :
    Passes inner first (!symbol.isOneOf ")]\x7d\"'`_") (left ++ (body.map hidden ++ [symbol])) (.glyph ' ' :: rest) := by
  obtain ⟨last, -, passes⟩ := blanks inner second body ([symbol] ++ .glyph ' ' :: rest)
  exact before.trans (passes.trans (closing noWord noBlank))

/-- An underscore belongs to the name before it. -/
theorem underscores {name : Text} (isName : AsciiName name) (inside : .glyph '_' ∈ name) (body : Text) :
    Passes inner first false (name ++ (body.map hidden ++ [.glyph '_'])) (.glyph ' ' :: rest) := by
  cases body with
  | nil =>
      have longer := isName.append_underscore
      exact word longer.starts (unreserved_of_mark (List.mem_append_left _ inside) (by decide))
        (longer.tokenLength_eq (.cons (by decide) _))
  | cons symbol others =>
      have divided : Divided ((symbol :: others).map hidden ++ [.glyph '_'] ++ .glyph ' ' :: rest) := by
        refine .cons ?_ _
        rcases hidden_cases symbol with shown | shown <;> rw [shown] <;> decide
      exact closed (by decide) (by decide)
        (word isName.starts (unreserved_of_mark inside (by decide)) (isName.tokenLength_eq divided))

/-- The body between an opening delimiter and its partner. -/
theorem enclosed {opening : Symbol} (noWord : opening.isAlphanumeric = false) (noBlank : opening.isBlank = false)
    (body : Text) :
    Passes inner first (!closesValue (closingOf opening) body) ([opening] ++ (body.map hidden ++ [closingOf opening]))
      (.glyph ' ' :: rest) := by
  by_cases isUnderscore : opening = .glyph '_'
  · subst isUnderscore
    exact underscores (by decide) (by decide) body
  by_cases paired : opening.isOneOf ":.&|" = true ∧ body = []
  · -- two delimiters without a body between them are one token
    obtain ⟨pairs, rfl⟩ := paired
    have among : opening = .glyph ':' ∨ opening = .glyph '.' ∨ opening = .glyph '&' ∨ opening = .glyph '|' := by
      simpa [Symbol.isOneOf] using pairs
    rcases among with rfl | rfl | rfl | rfl <;> exact pair rfl (by simp)
  · have outside := isWord_of_not_isAlphanumeric noWord isUnderscore
    have visible : isFiller opening = false := by rw [isFiller, noBlank, Bool.false_and]
    have alone : opening.isOneOf ":.&|" = true →
        (body.map hidden ++ [closingOf opening] ++ .glyph ' ' :: rest).head? ≠ some opening := by
      intro pairs same
      cases body with
      | nil => exact paired ⟨pairs, rfl⟩
      | cons symbol others =>
          rw [← Option.some.inj same] at noBlank
          rcases hidden_cases symbol with shown | shown <;> rw [shown] at noBlank <;> cases noBlank
    have value : closesValue (closingOf opening) body = (closingOf opening).isOneOf ")]\x7d\"'`_" := by
      rw [closesValue, Bool.or_eq_left_iff_imp, Bool.and_eq_true, decide_eq_true_eq, List.isEmpty_iff]
      rintro ⟨isColon, empty⟩
      rcases closingOf_cases opening with same | bracket
      · rw [same] at isColon
        exact absurd ⟨by rw [isColon]; rfl, empty⟩ paired
      · rw [isColon] at bracket
        cases bracket
    obtain ⟨closingWord, closingBlank⟩ := closingOf_outside noWord noBlank
    rw [value]
    exact closed closingWord closingBlank (Passes.symbol outside visible alone)

/-- A letter that names the kind of a literal is a word, and takes a mark after it along. -/
theorem kind {letter opening : Symbol} (isKind : letter.isOneOf "qQwWiIrsx" = true)
    (noWord : opening.isAlphanumeric = false) (noBlank : opening.isBlank = false) (body : Text) :
    Passes inner first (!closesValue (closingOf opening) body)
      ([letter, opening] ++ (body.map hidden ++ [closingOf opening])) (.glyph ' ' :: rest) := by
  have named : AsciiName [letter] := by
    simp only [Symbol.isOneOf, String.reduceToList, List.any_cons, List.any_nil, Bool.or_false, Bool.or_eq_true,
      beq_iff_eq] at isKind
    rcases isKind with rfl | rfl | rfl | rfl | rfl | rfl | rfl | rfl | rfl <;> decide
  have free : [letter] ∉ reservedWords := by
    have longer : ∀ word ∈ reservedWords, 2 ≤ word.length := by decide
    exact fun reserved => absurd (longer _ reserved) (by simp)
  by_cases isUnderscore : opening = .glyph '_'
  · subst isUnderscore
    exact underscores named.append_underscore (by simp) body
  by_cases isMark : opening.isOneOf "?!" = true
  · have among : opening = .glyph '?' ∨ opening = .glyph '!' := by simpa [Symbol.isOneOf] using isMark
    have marked : opening.isOneOf "_?!" = true := by rcases among with rfl | rfl <;> decide
    have token : Passes inner first false [letter, opening]
        (body.map hidden ++ [closingOf opening] ++ .glyph ' ' :: rest) :=
      word named.starts (unreserved_of_mark (List.mem_cons_of_mem _ List.mem_cons_self) marked)
        (tokenLength_marked named.starts named.parts isMark _)
    rcases among with rfl | rfl
    · exact closed (by decide) (by decide) token
    · exact closed (by decide) (by decide) token
  · have outside := isWord_of_not_isAlphanumeric noWord isUnderscore
    have token : Passes inner first false [letter]
        ([opening] ++ (body.map hidden ++ [closingOf opening]) ++ .glyph ' ' :: rest) :=
      word named.starts free (tokenLength_word named.starts named.parts
        (stops_cons (isNamePart_of_not_isWord outside) _) (stops_cons (Bool.eq_false_iff.mpr isMark) _))
    exact token.trans (enclosed noWord noBlank body)

end Passes

/-- After a literal a statement starts, unless its last delimiter ends a value. -/
theorem Literal.passes {literal : Literal} {behind after : Text} (stands : literal.Stands behind after) (inner : Nat)
    (first : Bool) (rest : Text) :
    Passes inner first (!literal.endsValue) literal.shown (.glyph ' ' :: rest) := by
  cases literal with
  | enclosed delimiters opener body =>
      obtain ⟨opens, closing, noWord, noBlank⟩ := Opener.of_read stands.1
      rw [endsValue, shown, closing]
      have percent (text : Text) : Passes inner first true [.glyph '%'] text :=
        Passes.symbol (by decide) (by decide) fun pairs => by cases pairs
      generalize delimiters.opening = opening at opens closing noWord noBlank
      cases opens with
      | bare => exact .enclosed noWord noBlank body
      | percent => exact (percent _).trans (.enclosed noWord noBlank body)
      | kind isKind => exact (percent _).trans (.kind isKind noWord noBlank body)
  | character symbol =>
      have mark : Passes inner first true [.glyph '?'] ([symbol].map hidden ++ .glyph ' ' :: rest) :=
        Passes.symbol (by decide) (by decide) fun pairs => by cases pairs
      obtain ⟨last, stays, blank⟩ := Passes.blanks inner true [symbol] (.glyph ' ' :: rest)
      rw [stays rfl] at blank
      exact mark.trans blank

/-- The copy shows a literal by its delimiters. -/
theorem Literal.rest_eq {literal : Literal} {behind after : Text} (stands : literal.Stands behind after) :
    Blanking.rest ⟨behind, literal.text ++ after, [], []⟩ =
      literal.shown ++ Blanking.rest ⟨literal.text.reverse ++ behind, after, [], []⟩ := by
  have image : Blanking.image ⟨behind, literal.text ++ after, [], []⟩ = literal.shown ∧
      (Blanking.opening ⟨behind, literal.text ++ after, [], []⟩).announces [] = [] := by
    unfold Blanking.image Blanking.opening
    cases literal with
    | enclosed delimiters opener body =>
        have whole : (enclosed delimiters opener body).text ++ after =
            opener ++ (body ++ delimiters.closing :: after) := by simp [text]
        dsimp only
        rw [whole, stands.1]
        refine ⟨?_, rfl⟩
        rw [Opening.image, List.take_left, List.drop_left, Delimiters.image, stands.2, List.take_left, List.drop_left]
        rfl
    | character symbol =>
        have reading : Opening.read behind ((character symbol).text ++ after) = .character := stands
        dsimp only
        rw [reading]
        exact ⟨rfl, rfl⟩
  rw [Blanking.rest_eq, Blanking.step_eq, image.1, image.2, literal.shown_length, List.take_left, List.drop_left]
  rfl

/-! ### Methods -/

theorem take_eq_left_iff {left right : Text} {symbol : Symbol} {length : Nat} :
    (left ++ symbol :: right).take length = left ↔ length = left.length := by
  constructor
  · intro same
    have size := congrArg List.length same
    rw [List.length_take, List.length_append, List.length_cons] at size
    omega
  · rintro rfl
    exact List.take_left

/-- A method whose body assigns a literal, with a modifier after it. -/
structure ModifiedAssignment where
  signature : Signature
  target : Word
  literal : Literal
  modifier : { keyword // keyword ∈ modifiers }
  condition : Word

namespace ModifiedAssignment

variable (assignment : ModifiedAssignment)

/-- What stands before the literal. -/
def front : Text :=
  assignment.signature.render ++ newline :: (assignment.target.text ++ " = ")

/-- What stands after the literal, on its line. -/
def guard : Text :=
  .glyph ' ' :: (assignment.modifier.val ++ .glyph ' ' :: assignment.condition.text)

def render : Text :=
  assignment.front ++ (assignment.literal.text ++ (assignment.guard ++ newline :: "end"))

theorem leads_guard (statement : Bool) :
    Leads ⟨0, statement, false⟩
      ⟨if statement then 1 else 0, false, statement && loopHeads.contains assignment.modifier.val⟩
      (assignment.modifier.val ++ .glyph ' ' :: assignment.condition.text) := by
  obtain ⟨keyword, member⟩ := assignment.modifier
  have modifies : Leads ⟨0, statement, false⟩
      ⟨if statement then 1 else 0, true, statement && loopHeads.contains keyword⟩ keyword := by
    apply Leads.of_name (name_of_modifier keyword member)
    intro text
    simp only [modifiers, List.mem_cons, List.not_mem_nil, or_false] at member
    cases statement <;> rcases member with rfl | rfl | rfl | rfl <;> rfl
  exact modifies.join (assignment.condition.leads _)

def line (literal : Text) : Text :=
  assignment.target.text ++ (" = " ++ (literal ++ assignment.guard))

/-- After the line of the literal the search for the end of the method is outside all blocks if the modifier is read as
one, and inside one that it opens otherwise. -/
theorem reaches {behind after : Text} (stands : assignment.literal.Stands behind after) (far later : Text) :
    Search.Reaches ⟨Block.opened, far, newline :: (assignment.line assignment.literal.shown ++ newline :: later)⟩
      ⟨⟨if assignment.literal.endsValue then 0 else 1, true, false⟩,
        pastLine (assignment.line assignment.literal.shown) (newline :: far), later⟩ := by
  let shown := assignment.literal.shown
  let words := assignment.modifier.val ++ .glyph ' ' :: assignment.condition.text
  let assigned : Text := assignment.target.text ++ .glyph ' ' :: ("=" : Text)
  have entered := Search.Reaches.line Block.opened far
    (assigned ++ .glyph ' ' :: (shown ++ .glyph ' ' :: (words ++ newline :: later)))
  have toLiteral := (assignment.target.leads ⟨0, true, false⟩).join (Leads.equals _) (newline :: far)
    (.glyph ' ' :: (shown ++ .glyph ' ' :: (words ++ newline :: later))) (.cons (by decide) _) (.cons (by decide) _)
  have overLiteral := assignment.literal.passes stands 0 true (words ++ newline :: later)
    (.glyph ' ' :: (assigned.reverse ++ newline :: far))
  have divided : Divided (.glyph ' ' :: (shown.reverse ++ .glyph ' ' :: (assigned.reverse ++ newline :: far))) :=
    .cons (by decide) _
  have overGuard := (assignment.leads_guard (!assignment.literal.endsValue)).line divided later
  have onward := (Search.Reaches.head (.filler (by decide)) overLiteral).trans (.head (.filler (by decide)) overGuard)
  have whole : assignment.line shown ++ newline :: later =
      assigned ++ .glyph ' ' :: (shown ++ .glyph ' ' :: (words ++ newline :: later)) := by
    simp [line, guard, assigned, words, Text.ofString]
  have passed : pastLine (assignment.line shown) (newline :: far) =
      pastLine words (.glyph ' ' :: (shown.reverse ++ .glyph ' ' :: (assigned.reverse ++ newline :: far))) := by
    simp [pastLine, line, guard, assigned, words, Text.ofString]
  rw [whole, passed]
  have reached := (entered.trans toLiteral).trans onward
  cases ends : assignment.literal.endsValue with
  | false =>
      rw [ends] at reached
      exact reached
  | true =>
      rw [ends] at reached
      exact reached

/-- The search for the end of the method stops at the `end` below the line of the literal exactly if the literal ends a
value. -/
theorem extent_iff {behind after : Text} (stands : assignment.literal.Stands behind after) (far later : Text) :
    Block.opened.extent far
        (newline :: (assignment.line assignment.literal.shown ++ newline :: (("end" : Text) ++ newline :: later))) =
        (newline :: (assignment.line assignment.literal.shown ++ newline :: ("end" : Text))).length ↔
      assignment.literal.endsValue = true := by
  generalize shownEq : assignment.line assignment.literal.shown = shown
  have reached := assignment.reaches stands far (("end" : Text) ++ newline :: later)
  rw [shownEq] at reached
  have divided : Divided (pastLine shown (newline :: far)) := .of_whole (pastLine_whole _ _)
  have size : (newline :: (shown ++ newline :: ("end" : Text))).length = shown.length + 5 := by
    simp [Text.ofString]
  have place : (pastLine shown (newline :: far)).length = far.length + (shown.length + 2) := by
    rw [pastLine_length, List.length_cons]
    omega
  have start : Search.finish ⟨Block.opened, far, newline :: (shown ++ newline :: (("end" : Text) ++ newline :: later))⟩ =
      far.length + Block.opened.extent far (newline :: (shown ++ newline :: (("end" : Text) ++ newline :: later))) := rfl
  rw [size]
  cases ends : assignment.literal.endsValue with
  | true =>
      rw [ends] at reached
      have found := (closes_end divided (.cons (by decide) _)).finish.symm.trans reached.finish
      rw [start] at found
      dsimp only at found
      exact iff_of_true (by omega) rfl
  | false =>
      -- the `end` closes the block of the modifier, and the search goes on below it
      rw [ends] at reached
      have passed := (reached.trans ((leads_end 0).line divided later)).finish
      have further := Nat.le_add_right (pastLine ("end" : Text) (pastLine shown (newline :: far))).length
        (Block.extent ⟨0, true, false⟩ (pastLine ("end" : Text) (pastLine shown (newline :: far))) later)
      rw [start, Search.finish] at passed
      rw [passed, pastLine_length, place] at further
      have three : (Text.ofString "end").length = 3 := rfl
      exact iff_of_false (by omega) (by simp)

/-- In the copy of the method and a text below it only the literal and that text are not shown as they are. -/
theorem blank_eq {rest : Text} (stands : assignment.literal.Stands assignment.front.reverse
      (assignment.guard ++ newline :: (("end" : Text) ++ newline :: rest))) :
    ∃ later, blank (assignment.render ++ newline :: rest) =
      assignment.signature.render ++ newline ::
        (assignment.line assignment.literal.shown ++ newline :: (("end" : Text) ++ newline :: later)) := by
  have space : IsCode [Symbol.glyph ' '] := .of_plain (by decide)
  have keyword : IsCode assignment.modifier.val := .word (name_of_modifier _ assignment.modifier.property)
  have ended : IsCode "end" := .of_plain (by decide)
  have frontCode := assignment.signature.isCode.append
    (IsCode.line.append (assignment.target.isCode.append (IsCode.equals.append space)))
  have backCode := space.append (keyword.append (space.append (assignment.condition.isCode.append
    (IsCode.line.append (ended.append IsCode.line)))))
  have frontEq : assignment.front = assignment.signature.render ++
      ([newline] ++ (assignment.target.text ++ (Text.ofString " =" ++ [.glyph ' ']))) := rfl
  have whole : assignment.render ++ newline :: rest =
      assignment.front ++ (assignment.literal.text ++
        (assignment.guard ++ newline :: (("end" : Text) ++ newline :: rest))) := by simp [render]
  have backEq (later : Text) : assignment.guard ++ newline :: (("end" : Text) ++ newline :: later) =
      ([.glyph ' '] ++ (assignment.modifier.val ++ ([.glyph ' '] ++ (assignment.condition.text ++
        ([newline] ++ (("end" : Text) ++ [newline])))))) ++ later := by simp [guard]
  have shows (later : Text) : assignment.front ++ (assignment.literal.shown ++
      (assignment.guard ++ newline :: (("end" : Text) ++ newline :: later))) =
      assignment.signature.render ++ newline ::
        (assignment.line assignment.literal.shown ++ newline :: (("end" : Text) ++ newline :: later)) := by
    simp [front, line]
  have copy := frontCode [] (assignment.literal.text ++
    (assignment.guard ++ newline :: (("end" : Text) ++ newline :: rest)))
  rw [← frontEq, List.append_nil, Literal.rest_eq stands, backEq rest, backCode, ← backEq rest, ← backEq, ← whole, shows]
    at copy
  exact ⟨_, copy⟩

theorem render_length : assignment.render.length = assignment.signature.render.length +
    (newline :: (assignment.line assignment.literal.shown ++ newline :: ("end" : Text))).length := by
  simp only [render, front, line, List.length_append, List.length_cons, Literal.shown_length]
  omega

end ModifiedAssignment

end AccessorLint.Source

namespace AccessorLint

open AccessorLint.Symbol (newline)
open Source (Declaration ModifiedAssignment)

/-- A method whose body assigns a literal, with a modifier after it, is found with its signature.  It ends at the `end`
below this line exactly if the literal ends a value: if it closes with a quote, a bracket other than `>` or an
underscore, or is empty between colons. -/
theorem modifier_opens_no_block_exactly_if_literal_ends_value (assignment : ModifiedAssignment) (path rest : Text)
    (stands : assignment.literal.Stands assignment.front.reverse
      (assignment.guard ++ newline :: (("end" : Text) ++ newline :: rest))) :
    ∃ method others, Declaration.scan (assignment.render ++ newline :: rest) path = method :: others ∧
      method.name = assignment.signature.name.text ∧
      (method.sourceText = assignment.render ↔ assignment.literal.endsValue = true) := by
  obtain ⟨later, copy⟩ := assignment.blank_eq stands
  have ends := assignment.extent_iff stands (assignment.signature.render.reverse ++ []) later
  have start : Source.Divided ([] : Text) := by simp [Source.Divided]
  have found := assignment.signature.at?_render start (newline ::
    (assignment.line assignment.literal.shown ++ newline :: (("end" : Text) ++ newline :: later)))
  rw [Declaration.scan, Source.Definition.all, copy, assignment.signature.within_render (.cons (by decide) _), found]
  refine ⟨_, _, rfl, rfl, ?_⟩
  change (assignment.render ++ newline :: rest).take (0 + assignment.signature.render.length +
    Source.Block.opened.extent (assignment.signature.render.reverse ++ []) _) = assignment.render ↔ _
  rw [Source.take_eq_left_iff, assignment.render_length, Nat.zero_add, Nat.add_left_cancel_iff]
  exact ends

/-- The body of a literal may hold brackets and an `end`. -/
theorem bracketed_words_modified :
    let assignment : ModifiedAssignment := {
      signature := ⟨⟨"m", by decide, by decide⟩, [⟨"a", by decide, by decide⟩]⟩
      target := ⟨"x", by decide, by decide⟩
      literal := .enclosed ⟨.glyph '(', .glyph ')', false⟩ "%w(" "b (end) c"
      modifier := ⟨"if", by decide⟩
      condition := ⟨"a", by decide, by decide⟩ }
    assignment.render = Text.ofString "def m(a)\nx = %w(b (end) c) if a\nend" ∧
      ∃ method others, Declaration.scan (assignment.render ++ newline :: "end\n") "a.rb" = method :: others ∧
        method.sourceText = assignment.render := by
  intro assignment
  obtain ⟨method, others, found, -, ends⟩ := modifier_opens_no_block_exactly_if_literal_ends_value assignment "a.rb" "end\n"
    ⟨by decide +kernel, by decide +kernel⟩
  exact ⟨by decide +kernel, method, others, found, ends.mpr (by decide +kernel)⟩

/-- After a regular expression the modifier opens a block, and the method takes up the one below it. -/
theorem regex_modifier_opens_block :
    (Declaration.scan "def m(a)\nx = /b/ if a\nend\ndef n\nend\n" "a.rb").head?.map Declaration.sourceText =
      some (Text.ofString "def m(a)\nx = /b/ if a\nend\ndef n\nend\n") := by
  decide +kernel

end AccessorLint
