import Mathlib
import AccessorLint.Proofs.Nesting
set_option autoImplicit false

/-!
Phrases: words with dividers between them.

A phrase is followed in three ways.  The copy of a text without literals and comments shows it as it is, the search for
definitions passes it if the word `def` does not occur in it, and the search for the end of a block gets from one state
to another by it.  Each of the three holds of two phrases with a divider between them if it holds of both.
-/

namespace AccessorLint.Source

open AccessorLint.Symbol (newline)
open AccessorLint.Text (WholeLines)

/-! ### Dividers -/

def divides (symbol : Symbol) : Bool :=
  symbol.isOneOf "\n (),"

theorem divides_iff (symbol : Symbol) :
    divides symbol = true ↔ symbol = newline ∨ symbol = .glyph ' ' ∨ symbol = .glyph '(' ∨ symbol = .glyph ')' ∨
      symbol = .glyph ',' := by
  simp [divides, Symbol.isOneOf, newline]

/-- Whether a text is empty or starts with a divider. -/
def Divided (text : Text) : Prop :=
  ∀ first ∈ text.head?, divides first = true

namespace Divided

variable {behind text : Text}

theorem cons {symbol : Symbol} (isDivider : divides symbol = true) (rest : Text) : Divided (symbol :: rest) := by
  intro first member
  cases member
  exact isDivider

/-- Behind whole lines there is a newline or nothing. -/
theorem of_whole (whole : WholeLines behind.reverse) : Divided behind := by
  intro last member
  rw [whole last (by rw [List.getLast?_reverse]; exact member)]
  decide

theorem first {property : Symbol → Bool} (divided : Divided text)
    (outside : property newline = false ∧ property (.glyph ' ') = false ∧ property (.glyph '(') = false ∧
      property (.glyph ')') = false ∧ property (.glyph ',') = false) :
    ∀ next ∈ text.head?, property next = false := by
  intro next member
  obtain ⟨line, space, opening, closing, comma⟩ := outside
  rcases (divides_iff next).mp (divided next member) with rfl | rfl | rfl | rfl | rfl
  · exact line
  · exact space
  · exact opening
  · exact closing
  · exact comma

theorem not_isWord (divided : Divided text) : ∀ next ∈ text.head?, next.isWord = false :=
  divided.first (by decide)

theorem any_head {property : Symbol → Bool} (outside : ∀ next ∈ text.head?, property next = false) :
    text.head?.any property = false := by
  cases text with
  | nil => rfl
  | cons next rest => exact outside next rfl

theorem isKeywordPlace (before : Divided behind) (after : Divided text) :
    Source.isKeywordPlace behind text = true := by
  have noMark : behind.head?.any (fun symbol => symbol.isOneOf "@$") = false :=
    any_head (before.first (by decide))
  have noDot : behind.head? ≠ some (.glyph '.') := fun dot => by cases before _ dot
  have noColon : behind.head? ≠ some (.glyph ':') := fun colon => by cases before _ colon
  have noKey : text.head? ≠ some (.glyph ':') := fun colon => by cases after _ colon
  simp [Source.isKeywordPlace, noMark, noDot, noColon, noKey]

end Divided

/-- What lies behind after a line and its newline. -/
def pastLine (line behind : Text) : Text :=
  newline :: (line.reverse ++ behind)

section Lines

variable (line behind : Text)

theorem pastLine_length : (pastLine line behind).length = behind.length + line.length + 1 := by
  rw [pastLine, List.length_cons, List.length_append, List.length_reverse, Nat.add_comm line.length]

theorem pastLine_count {line : Text} (absent : newline ∉ line) :
    (pastLine line behind).count newline = behind.count newline + 1 := by
  rw [pastLine, List.count_cons_self, List.count_append, List.count_reverse, List.count_eq_zero_of_not_mem absent,
    Nat.zero_add]

theorem pastLine_whole : WholeLines (pastLine line behind).reverse := by
  rw [pastLine, List.reverse_cons]
  exact .append_newline _

end Lines

/-! ### Names -/

/-- Whether a word is made of ASCII letters, digits and underscores, and starts with no digit. -/
structure AsciiName (word : Text) : Prop where
  starts : ∃ first ∈ word.head?, first.isNameStart = true
  parts : ∀ symbol ∈ word, symbol.isNamePart = true

namespace AsciiName

variable {word behind rest : Text}

instance : Decidable (AsciiName word) :=
  decidable_of_iff ((∃ first ∈ word.head?, first.isNameStart = true) ∧ ∀ symbol ∈ word, symbol.isNamePart = true)
    ⟨fun both => ⟨both.1, both.2⟩, fun name => ⟨name.starts, name.parts⟩⟩

theorem identifier (name : AsciiName word) : IsIdentifier word :=
  ⟨name.starts, fun symbol member => isWord_of_isNamePart (name.parts symbol member)⟩

theorem newline_not_mem (name : AsciiName word) : newline ∉ word := by
  intro member
  cases name.parts newline member

theorem tokenLength_eq (name : AsciiName word) (divided : Divided rest) :
    tokenLength (word ++ rest) = word.length :=
  tokenLength_word name.starts name.parts (divided.first (by decide)) (divided.first (by decide))

/-- A name between dividers is read as a keyword is. -/
theorem read_eq (name : AsciiName word) (before : Divided behind) (after : Divided rest) (block : Block) :
    block.read behind (word ++ rest) = block.readKeyword word (word ++ rest) := by
  have size := name.tokenLength_eq after
  obtain ⟨first, member, start⟩ := name.starts
  obtain ⟨run, rfl⟩ := List.head?_eq_some_iff.mp member
  rw [block.read_word behind size start, if_pos (before.isKeywordPlace after)]

end AsciiName

/-! ### What the copy shows -/

/-- Whether the copy shows one text for another, wherever that stands. -/
def Shows (text copy : Text) : Prop :=
  ∀ behind later, Blanking.rest ⟨behind, text ++ later, [], []⟩ =
    copy ++ Blanking.rest ⟨text.reverse ++ behind, later, [], []⟩

namespace Shows

variable {text copy left right leftCopy rightCopy : Text}

theorem append (first : Shows left leftCopy) (second : Shows right rightCopy) :
    Shows (left ++ right) (leftCopy ++ rightCopy) := by
  intro behind later
  rw [List.append_assoc, first, second, List.append_assoc, List.reverse_append, List.append_assoc]

theorem blank_eq (shows : Shows text copy) : blank text = copy := by
  have whole := shows [] []
  have ended : Blanking.rest ⟨text.reverse ++ [], [], [], []⟩ = [] := Blanking.rest_of_nil rfl
  rw [ended, List.append_nil, List.append_nil] at whole
  exact whole

end Shows

/-- Whether the copy shows a text as it is, wherever it stands. -/
abbrev IsCode (text : Text) : Prop :=
  Shows text text

namespace IsCode

variable {text : Text}

theorem rest_of_code {behind later : Text} {symbol : Symbol}
    (reading : Opening.read behind (symbol :: later) = .code) :
    Blanking.rest ⟨behind, symbol :: later, [], []⟩ = symbol :: Blanking.rest ⟨symbol :: behind, later, [], []⟩ := by
  rw [Blanking.rest_eq, Blanking.step_eq, Blanking.image, Blanking.opening, reading]
  rfl

theorem of_plain (plain : ∀ symbol ∈ text, isPlain symbol = true) : IsCode text := by
  induction text with
  | nil => exact fun _ _ => rfl
  | cons symbol others ih =>
      intro behind later
      have here : isPlain symbol = true := plain symbol List.mem_cons_self
      have there := ih fun other member => plain other (List.mem_cons_of_mem _ member)
      rw [List.cons_append, rest_of_code (Opening.read_plain behind here _), there, List.reverse_cons,
        List.append_assoc]
      rfl

theorem word (name : AsciiName text) : IsCode text :=
  of_plain fun symbol member => isPlain_of_isWord (name.identifier.words symbol member)

theorem line : IsCode [newline] := by
  intro behind later
  rw [Blanking.rest_eq, Blanking.step_eq]
  rfl

/-- After a space no block comment starts. -/
theorem equals : IsCode " =" := by
  intro behind later
  change Blanking.rest ⟨behind, .glyph ' ' :: .glyph '=' :: later, [], []⟩ = _
  rw [rest_of_code (Opening.read_plain behind (by decide) _), rest_of_code rfl]
  rfl

end IsCode

/-! ### Where no definition starts -/

/-- Whether no definition starts in a phrase. -/
def DefFree (text : Text) : Prop :=
  ∀ behind rest, Divided behind → Divided rest →
    Definition.within behind (text ++ rest) = Definition.within (text.reverse ++ behind) rest

namespace DefFree

variable {left right word : Text}

theorem nil : DefFree [] :=
  fun _ _ _ _ => rfl

theorem within_other {symbol : Symbol} (other : symbol ≠ .glyph 'd') (behind rest : Text) :
    Definition.within behind (symbol :: rest) = Definition.within (symbol :: behind) rest := by
  rw [Definition.within, Slot.at?_of_head other]
  rfl

theorem symbol {symbol : Symbol} (other : symbol ≠ .glyph 'd') : DefFree [symbol] :=
  fun behind rest _ _ => within_other other behind rest

theorem join {divider : Symbol} (isDivider : divides divider = true) (first : DefFree left) (second : DefFree right) :
    DefFree (left ++ divider :: right) := by
  intro behind rest before after
  have other : divider ≠ .glyph 'd' := by
    rintro rfl
    cases isDivider
  rw [List.append_assoc, List.cons_append, first behind _ before (.cons isDivider _), within_other other,
    second _ rest (.cons isDivider _) after]
  simp

theorem line {text behind : Text} (free : DefFree text) (before : Divided behind) (below : Text) :
    Definition.within behind (text ++ newline :: below) = Definition.within (pastLine text behind) below := by
  rw [free behind _ before (.cons (by decide) _), within_other (by decide)]
  rfl

theorem within_run {run : Text} (words : ∀ symbol ∈ run, symbol.isWord = true) {last : Symbol}
    (isWord : last.isWord = true) (behind rest : Text) :
    Definition.within (last :: behind) (run ++ rest) = Definition.within (run.reverse ++ last :: behind) rest := by
  induction run generalizing last behind with
  | nil => rfl
  | cons symbol others ih =>
      have here : symbol.isWord = true := words symbol List.mem_cons_self
      have inside : Definition.at? (last :: behind) (symbol :: (others ++ rest)) = none := Definition.at?_of_word isWord
      rw [List.cons_append, Definition.within, inside,
        ih (fun other member => words other (List.mem_cons_of_mem _ member)) here, List.reverse_cons, List.append_assoc]
      rfl

end DefFree

/-- Whether no definition starts in a text that a word does not go on. -/
def Inert (text : Text) : Prop :=
  ∀ behind rest, (∀ next ∈ rest.head?, next.isWord = false) →
    Definition.within behind (text ++ rest) = Definition.within (text.reverse ++ behind) rest

/-- A word is no head, unless it is a `def` with a gap after it. -/
theorem Header.read?_word {word rest : Text} (words : ∀ symbol ∈ word, symbol.isWord = true)
    (stops : ∀ next ∈ rest.head?, next.isWord = false)
    (other : word ≠ "def" ∨ ∀ next ∈ rest.head?, isGap next = false) : read? (word ++ rest) = none := by
  cases found : read? (word ++ rest) with
  | none => rfl
  | some header =>
      obtain ⟨lead, name, below, same, isLead, -⟩ := read?_sound found
      obtain ⟨gap, others, rfl, isGap⟩ := isLead.head
      have keyword : ∀ symbol ∈ Text.ofString "def", symbol.isWord = true := by decide
      have sameRun := congrArg (List.takeWhile Symbol.isWord) same
      rw [takeWhile_run words stops, takeWhile_run keyword (by
        intro next member
        cases member
        exact isWord_of_isGap isGap)] at sameRun
      rcases other with differs | noGap
      · exact absurd sameRun differs
      · rw [sameRun] at same
        have after := noGap gap (by rw [List.append_cancel_left same]; rfl)
        rw [isGap] at after
        cases after

namespace Inert

variable {text left right word : Text}

theorem stops_cons {symbol : Symbol} (outside : symbol.isWord = false) (rest : Text) :
    ∀ next ∈ (symbol :: rest).head?, next.isWord = false := by
  intro next member
  cases member
  exact outside

theorem append (first : Inert left) (second : Inert right) (stops : ∀ next ∈ right.head?, next.isWord = false) :
    Inert (left ++ right) := by
  intro behind rest after
  have between : ∀ next ∈ (right ++ rest).head?, next.isWord = false := by
    cases right with
    | nil => exact after
    | cons symbol others => exact stops
  rw [List.append_assoc, first behind _ between, second _ rest after, List.reverse_append, List.append_assoc]

theorem after {front : Text} (others : .glyph 'd' ∉ front) (inert : Inert text) : Inert (front ++ text) := by
  induction front with
  | nil => exact inert
  | cons symbol front ih =>
      rw [List.mem_cons, not_or] at others
      intro behind rest stops
      rw [List.cons_append, List.cons_append, DefFree.within_other (Ne.symm others.1), ih others.2 _ rest stops,
        List.reverse_cons, List.append_assoc]
      rfl

theorem nil : Inert [] :=
  fun _ _ _ => rfl

theorem of_absent (others : .glyph 'd' ∉ text) : Inert text := by
  rw [← List.append_nil text]
  exact nil.after others

/-- A word is passed as a whole if it is no head. -/
theorem within_word (identifier : IsIdentifier word) {behind rest : Text}
    (noHead : Header.read? (word ++ rest) = none) :
    Definition.within behind (word ++ rest) = Definition.within (word.reverse ++ behind) rest := by
  have nothing : Definition.at? behind (word ++ rest) = none := Definition.at?_of_no_head noHead
  obtain ⟨first, run, rfl⟩ := List.exists_cons_of_ne_nil identifier.ne_nil
  have isWord := identifier.words first List.mem_cons_self
  have inRun : ∀ symbol ∈ run, symbol.isWord = true := fun symbol member =>
    identifier.words symbol (List.mem_cons_of_mem _ member)
  rw [List.cons_append] at nothing ⊢
  rw [Definition.within, nothing, DefFree.within_run inRun isWord, List.reverse_cons, List.append_assoc]
  rfl

theorem of_name (name : AsciiName word) (free : word ≠ "def") : Inert word := fun _ _ stops =>
  within_word name.identifier (Header.read?_word name.identifier.words stops (Or.inl free))

end Inert

namespace DefFree

variable {word : Text}

theorem of_name (name : AsciiName word) (free : word ≠ "def") : DefFree word := fun behind rest _ after =>
  Inert.of_name name free behind rest after.not_isWord

/-- At a `def` one definition starts at most, and none inside it. -/
theorem within_def (behind rest : Text) :
    Definition.within behind ("def" ++ rest) =
      (Definition.at? behind ("def" ++ rest)).toList ++ Definition.within (("def" : Text).reverse ++ behind) rest := by
  have later : Definition.within (.glyph 'd' :: behind) ("ef" ++ rest) =
      Definition.within (("ef" : Text).reverse ++ .glyph 'd' :: behind) rest :=
    within_run (by decide) (by decide) behind rest
  change Definition.within behind (.glyph 'd' :: ("ef" ++ rest)) = _
  rw [Definition.within, later]
  rfl

end DefFree

/-! ### Where a phrase leads -/

/-- Whether the search for the end of a block gets from one state to another by a phrase. -/
def Leads (first last : Block) (text : Text) : Prop :=
  ∀ behind rest, Divided behind → Divided rest →
    Search.Reaches ⟨first, behind, text ++ rest⟩ ⟨last, text.reverse ++ behind, rest⟩

namespace Leads

variable {first second third : Block} {left right word : Text}

theorem nil (block : Block) : Leads block block [] :=
  fun _ _ _ _ => .refl _

theorem join (before : Leads first second left) (after : Leads second third right) :
    Leads first third (left ++ .glyph ' ' :: right) := by
  intro behind rest dividedBehind dividedRest
  have toSpace := before behind (.glyph ' ' :: (right ++ rest)) dividedBehind (.cons (by decide) _)
  have overSpace : Search.Step ⟨second, left.reverse ++ behind, .glyph ' ' :: (right ++ rest)⟩
      ⟨second, .glyph ' ' :: (left.reverse ++ behind), right ++ rest⟩ := .filler (by decide)
  have fromSpace := after (.glyph ' ' :: (left.reverse ++ behind)) rest (.cons (by decide) _) dividedRest
  have regrouped : (left ++ .glyph ' ' :: right).reverse ++ behind =
      right.reverse ++ .glyph ' ' :: (left.reverse ++ behind) := by simp
  rw [List.append_assoc, List.cons_append, regrouped]
  exact toSpace.trans (.head overSpace fromSpace)

theorem line {text behind : Text} (leads : Leads first second text) (before : Divided behind) (below : Text) :
    Search.Reaches ⟨first, behind, text ++ newline :: below⟩
      ⟨⟨second.inner, true, false⟩, pastLine text behind, below⟩ :=
  (leads behind _ before (.cons (by decide) _)).trans (.line second _ below)

theorem of_name (name : AsciiName word)
    (reading : ∀ text, first.readKeyword word text = .goesOn second word.length) : Leads first second word := by
  intro behind rest dividedBehind dividedRest
  have nonempty : word ++ rest ≠ [] := fun none => name.identifier.ne_nil (List.append_eq_nil_iff.mp none).1
  have visible : ∀ symbol ∈ (word ++ rest).head?, isFiller symbol = false := by
    intro symbol member
    obtain ⟨initial, run, rfl⟩ := List.exists_cons_of_ne_nil name.identifier.ne_nil
    cases member
    rw [isFiller, Symbol.isBlank_of_isWord (name.identifier.words symbol List.mem_cons_self)]
    rfl
  have step := Search.Step.token nonempty visible ((name.read_eq dividedBehind dividedRest first).trans (reading _))
  rw [List.take_left, List.drop_left] at step
  exact .head step (.refl _)

theorem equals (block : Block) : Leads block { block with atStatement := true } "=" := by
  intro behind rest _ _
  have visible : ∀ symbol ∈ (Text.ofString "=" ++ rest).head?, isFiller symbol = false := by
    intro symbol member
    cases member
    decide
  have reading : block.read behind (Text.ofString "=" ++ rest) = .goesOn { block with atStatement := true } 1 := by
    have size : tokenLength (Text.ofString "=" ++ rest) = (Text.ofString "=").length := rfl
    rw [Block.read_token block behind size]
    rfl
  exact .head (.token (List.cons_ne_nil _ _) visible reading) (.refl _)

end Leads

end AccessorLint.Source
