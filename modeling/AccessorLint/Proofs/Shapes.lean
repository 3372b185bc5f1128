import Mathlib
import AccessorLint.Proofs.Tokens
set_option autoImplicit false

/-!
Texts of one shape: symbol by symbol they are the same, or both have a part of a name there.

Gaps, marks, brackets and the ends of words and lines stand at the same places of two such texts.  What may differ is
whether an identifier or a constant starts at a place, since that depends on the symbol; so the head of a method is
followed up to a name that is exchanged for another one, and ends at the same place in both texts.
-/

namespace AccessorLint.Source

open AccessorLint.Symbol (newline)

/-! ### Shapes -/

def SameShape (left right : Text) : Prop :=
  List.Forall₂ (fun first second => first = second ∨ first.isNamePart = true ∧ second.isNamePart = true) left right

/-- Whether a property holds of all parts of names, or of none. -/
def Uniform (property : Symbol → Bool) : Prop :=
  ∃ value, ∀ symbol : Symbol, symbol.isNamePart = true → property symbol = value

namespace Uniform

theorem of_outside {property : Symbol → Bool} (outside : ∀ symbol, property symbol = true → symbol.isNamePart = false) :
    Uniform property := by
  refine ⟨false, fun symbol part => ?_⟩
  rw [Bool.eq_false_iff]
  intro holds
  rw [outside symbol holds] at part
  cases part

theorem gap : Uniform isGap :=
  of_outside fun _ gap => isNamePart_of_isBlank (isBlank_of_isGap gap)

theorem blank : Uniform Symbol.isBlank :=
  of_outside fun _ blank => isNamePart_of_isBlank blank

theorem isOneOf (chars : String) (outside : ∀ char ∈ chars.toList, (Symbol.glyph char).isNamePart = false) :
    Uniform fun symbol => symbol.isOneOf chars :=
  of_outside fun _ member => isNamePart_of_isOneOf outside member

theorem eq (symbol : Symbol) (outside : symbol.isNamePart = false) : Uniform fun other => other = symbol :=
  of_outside fun _ same => by rw [of_decide_eq_true same, outside]

theorem word : Uniform Symbol.isWord :=
  ⟨true, fun _ part => isWord_of_isNamePart part⟩

theorem namePart : Uniform Symbol.isNamePart :=
  ⟨true, fun _ part => part⟩

theorem or {left right : Symbol → Bool} (first : Uniform left) (second : Uniform right) :
    Uniform fun symbol => left symbol || right symbol := by
  obtain ⟨value, inLeft⟩ := first
  obtain ⟨other, inRight⟩ := second
  refine ⟨value || other, fun symbol part => ?_⟩
  dsimp only
  rw [inLeft symbol part, inRight symbol part]

theorem not {property : Symbol → Bool} (uniform : Uniform property) : Uniform fun symbol => !property symbol := by
  obtain ⟨value, inside⟩ := uniform
  refine ⟨!value, fun symbol part => ?_⟩
  dsimp only
  rw [inside symbol part]

end Uniform

namespace SameShape

variable {left right : Text} {property : Symbol → Bool}

theorem refl (text : Text) : SameShape text text :=
  List.forall₂_same.mpr fun _ _ => Or.inl rfl

theorem append {more further : Text} (first : SameShape left right) (second : SameShape more further) :
    SameShape (left ++ more) (right ++ further) :=
  List.rel_append first second

theorem of_names (size : left.length = right.length) (parts : ∀ symbol ∈ left, symbol.isNamePart = true)
    (otherParts : ∀ symbol ∈ right, symbol.isNamePart = true) : SameShape left right :=
  List.forall₂_iff_get.mpr ⟨size, fun _ _ _ => Or.inr ⟨parts _ (List.get_mem _ _), otherParts _ (List.get_mem _ _)⟩⟩

theorem drop (shape : SameShape left right) (count : Nat) : SameShape (left.drop count) (right.drop count) :=
  List.forall₂_drop count shape

theorem apply_eq {first second : Symbol}
    (same : first = second ∨ first.isNamePart = true ∧ second.isNamePart = true) (uniform : Uniform property) :
    property first = property second := by
  obtain ⟨value, inside⟩ := uniform
  rcases same with rfl | ⟨part, otherPart⟩
  · rfl
  · rw [inside first part, inside second otherPart]

theorem eq_iff {first second : Symbol}
    (same : first = second ∨ first.isNamePart = true ∧ second.isNamePart = true) (symbol : Symbol)
    (outside : symbol.isNamePart = false) : first = symbol ↔ second = symbol := by
  simpa using apply_eq same (Uniform.eq symbol outside)

theorem any_head? (shape : SameShape left right) (uniform : Uniform property) :
    left.head?.any property = right.head?.any property := by
  cases shape with
  | nil => rfl
  | cons same _ => exact apply_eq same uniform

theorem head?_eq_iff (shape : SameShape left right) (symbol : Symbol) (outside : symbol.isNamePart = false) :
    left.head? = some symbol ↔ right.head? = some symbol := by
  cases shape with
  | nil => exact Iff.rfl
  | cons same _ =>
      rw [List.head?_cons, List.head?_cons, Option.some.injEq, Option.some.injEq]
      exact eq_iff same symbol outside

theorem takeWhile (shape : SameShape left right) (uniform : Uniform property) :
    SameShape (left.takeWhile property) (right.takeWhile property) := by
  induction shape with
  | nil => exact .nil
  | @cons first second left right same _ ih =>
      have alike := apply_eq same uniform
      cases holds : property second with
      | false =>
          rw [holds] at alike
          rw [List.takeWhile_cons_of_neg (by simp [alike]), List.takeWhile_cons_of_neg (by simp [holds])]
          exact .nil
      | true =>
          rw [holds] at alike
          rw [List.takeWhile_cons_of_pos alike, List.takeWhile_cons_of_pos holds]
          exact .cons same ih

theorem takeWhile_length (shape : SameShape left right) (uniform : Uniform property) :
    (left.takeWhile property).length = (right.takeWhile property).length :=
  (shape.takeWhile uniform).length_eq

theorem dropWhile (shape : SameShape left right) (uniform : Uniform property) :
    SameShape (left.dropWhile property) (right.dropWhile property) := by
  induction shape with
  | nil => exact .nil
  | @cons first second left right same shape ih =>
      have alike := apply_eq same uniform
      cases holds : property second with
      | false =>
          rw [holds] at alike
          rw [List.dropWhile_cons_of_neg (by simp [alike]), List.dropWhile_cons_of_neg (by simp [holds])]
          exact .cons same shape
      | true =>
          rw [holds] at alike
          rw [List.dropWhile_cons_of_pos alike, List.dropWhile_cons_of_pos holds]
          exact ih

theorem startsWith_eq (shape : SameShape left right) {word : Text}
    (outside : ∀ symbol ∈ word, symbol.isNamePart = false) :
    Text.startsWith left word = Text.startsWith right word := by
  induction word generalizing left right with
  | nil => simp [Text.startsWith]
  | cons symbol others ih =>
      cases shape with
      | nil => rfl
      | @cons first second left right same shape =>
          have here := eq_iff same symbol (outside symbol List.mem_cons_self)
          have later := ih shape fun other member => outside other (List.mem_cons_of_mem _ member)
          unfold Text.startsWith at later ⊢
          rw [List.isPrefixOf_cons_cons, List.isPrefixOf_cons_cons, later]
          congr 1
          rw [Bool.eq_iff_iff, beq_iff_eq, beq_iff_eq, eq_comm, here, eq_comm]

theorem closingSpan_eq (shape : SameShape left right) (opening closing : Symbol)
    (noOpening : opening.isNamePart = false) (noClosing : closing.isNamePart = false) (depth : Int) :
    closingSpan opening closing depth left = closingSpan opening closing depth right := by
  induction shape generalizing depth with
  | nil => rfl
  | @cons first second left right same _ ih =>
      have opens := eq_iff same opening noOpening
      have closes := eq_iff same closing noClosing
      simp only [closingSpan, opens, closes, ih]

/-! ### Heads of one shape -/

theorem wordLength_eq (shape : SameShape left right)
    (starts : left.head?.any Symbol.isNameStart = right.head?.any Symbol.isNameStart) :
    wordLength left = wordLength right := by
  cases shape with
  | nil => rfl
  | @cons first second left right same shape =>
      have start : first.isNameStart = second.isNameStart := starts
      rw [wordLength, wordLength, start, takeWhile_length shape .word]

theorem markLength_eq (shape : SameShape left right) : markLength left = markLength right := by
  cases shape with
  | nil => rfl
  | @cons first second left right same shape =>
      have marks := apply_eq same (.isOneOf "?!" (by simp; decide))
      have equals := eq_iff same (.glyph '=') (by decide)
      have signs := any_head? shape (.isOneOf "=~>" (by simp; decide))
      simp only [markLength, marks, equals, signs]

theorem nameLength_eq (shape : SameShape left right)
    (starts : left.head?.any Symbol.isNameStart = right.head?.any Symbol.isNameStart) :
    nameLength left = nameLength right := by
  have outside : ∀ operator ∈ operatorNames, ∀ symbol ∈ operator, symbol.isNamePart = false := by decide
  have operators : (operatorNames.find? fun operator => left.startsWith operator) =
      operatorNames.find? fun operator => right.startsWith operator := by
    apply List.find?_congr
    intro operator member
    exact shape.startsWith_eq (outside operator member)
  simp only [nameLength, shape.wordLength_eq starts, operators, (shape.drop _).markLength_eq]

theorem isEndless_eq (shape : SameShape left right) : Header.isEndless left = Header.isEndless right := by
  have rest := shape.dropWhile .gap
  unfold Header.isEndless
  generalize left.dropWhile isGap = tail at rest
  generalize right.dropWhile isGap = otherTail at rest
  cases rest with
  | nil => rfl
  | @cons first second left right same shape =>
      have equals := eq_iff same (.glyph '=') (by decide)
      have signs := any_head? shape (.isOneOf "=~>" (by simp; decide))
      simp only [equals, signs]

theorem isEmpty_eq (shape : SameShape left right) : left.isEmpty = right.isEmpty := by
  cases shape with
  | nil => rfl
  | cons => rfl

theorem parametersAt_eq (shape : SameShape left right) (offset : Nat) :
    (Header.parametersAt left offset).2 = (Header.parametersAt right offset).2 := by
  have gaps := (shape.drop offset).takeWhile_length .gap
  simp only [Header.parametersAt, gaps]
  generalize offset + ((right.drop offset).takeWhile isGap).length = first
  have rest := shape.drop first
  have opens := rest.head?_eq_iff (.glyph '(') (by decide)
  have span := rest.closingSpan_eq (.glyph '(') (.glyph ')') (by decide) (by decide) 0
  have line := rest.takeWhile (.not (.isOneOf "\n;" (by simp; decide)))
  have content : SameShape (Text.trimLeft _) (Text.trimLeft _) := line.dropWhile .blank
  have empty := content.isEmpty_eq
  have equals := content.head?_eq_iff (.glyph '=') (by decide)
  simp only [opens, span, empty, equals, List.length_take, rest.length_eq, line.length_eq]
  split_ifs <;> rfl

end SameShape

/-! ### Texts before a call -/

/-- Whether a text is empty or ends with the dot or colon after which a method is called. -/
def Linked (text : Text) : Prop :=
  ∀ last ∈ text.getLast?, last = .glyph '.' ∨ last = .glyph ':'

namespace Linked

variable {text : Text}

theorem drop (linked : Linked text) (count : Nat) : Linked (text.drop count) := by
  intro last member
  rw [List.getLast?_drop] at member
  split_ifs at member
  · cases member
  · exact linked last member

theorem tail {first : Symbol} {others : Text} (linked : Linked (first :: others)) : Linked others :=
  linked.drop 1

/-- A run of symbols other than dots and colons ends inside the text. -/
theorem takeWhile_append (linked : Linked text) (nonempty : text ≠ []) (property : Symbol → Bool)
    (outside : property (.glyph '.') = false ∧ property (.glyph ':') = false) (rest : Text) :
    (text ++ rest).takeWhile property = text.takeWhile property ∧ (text.takeWhile property).length < text.length := by
  have stops : property (text.getLast nonempty) = false := by
    rcases linked _ (List.getLast?_eq_getLast_of_ne_nil nonempty) with isDot | isColon
    · rw [isDot]
      exact outside.1
    · rw [isColon]
      exact outside.2
  have shorter : (text.takeWhile property).length ≠ text.length := by
    intro whole
    have all := (List.takeWhile_prefix (l := text) property).eq_of_length whole
    have holds := List.takeWhile_eq_self_iff.mp all _ (List.getLast_mem nonempty)
    rw [stops] at holds
    cases holds
  rw [List.takeWhile_append, if_neg shorter]
  exact ⟨rfl, lt_of_le_of_ne (List.takeWhile_prefix _).length_le shorter⟩

theorem wordLength_append (linked : Linked text) (nonempty : text ≠ []) (rest : Text) :
    wordLength (text ++ rest) = wordLength text ∧ wordLength text < text.length := by
  obtain ⟨first, others, rfl⟩ := List.exists_cons_of_ne_nil nonempty
  rw [List.cons_append, wordLength, wordLength, List.length_cons]
  by_cases start : first.isNameStart = true
  · have more : others ≠ [] := by
      rintro rfl
      rcases linked first rfl with rfl | rfl <;> cases start
    obtain ⟨same, shorter⟩ := linked.tail.takeWhile_append more Symbol.isWord (by decide) rest
    rw [if_pos start, if_pos start, same]
    omega
  · rw [if_neg start, if_neg start]
    omega

end Linked

/-! ### A name exchanged -/

/-- Whether a word is an identifier that starts with a small letter. -/
structure SmallName (word : Text) : Prop where
  starts : ∃ first ∈ word.head?, first.satisfies Char.isLower = true
  parts : ∀ symbol ∈ word, symbol.isNamePart = true

/-- Two such words that are equally long. -/
structure Exchange (word other : Text) : Prop where
  name : SmallName word
  otherName : SmallName other
  size : word.length = other.length

theorem SmallName.exists_first {word : Text} (name : SmallName word) :
    ∃ first run, word = first :: run ∧ first.isNameStart = true ∧ first.isNamePart = true ∧
      first.satisfies Char.isUpper = false := by
  obtain ⟨first, member, small⟩ := name.starts
  obtain ⟨run, rfl⟩ := List.head?_eq_some_iff.mp member
  refine ⟨first, run, rfl, ?_, name.parts first List.mem_cons_self, ?_⟩
  · cases first with
    | glyph char =>
        have lower : char.isLower = true := small
        change (char.isAlpha || char == '_') = true
        rw [Char.isAlpha, lower, Bool.or_true, Bool.true_or]
    | stray low => cases small
  · cases first with
    | glyph char => exact Bool.eq_false_iff.mpr (Char.not_isUpper_of_isLower small)
    | stray low => rfl

namespace Exchange

variable {word other : Text}

theorem shape (exchange : Exchange word other) (mid back : Text) :
    SameShape (mid ++ (word ++ back)) (mid ++ (other ++ back)) :=
  (SameShape.refl mid).append
    ((SameShape.of_names exchange.size exchange.name.parts exchange.otherName.parts).append (.refl back))

theorem starts_eq (exchange : Exchange word other) (mid back : Text) :
    (mid ++ (word ++ back)).head?.any Symbol.isNameStart = (mid ++ (other ++ back)).head?.any Symbol.isNameStart := by
  cases mid with
  | cons symbol others => rfl
  | nil =>
      obtain ⟨first, run, rfl, start, -⟩ := exchange.name.exists_first
      obtain ⟨second, otherRun, rfl, otherStart, -⟩ := exchange.otherName.exists_first
      exact start.trans otherStart.symm

end Exchange

section Receivers

variable {word : Text} (name : SmallName word) {mid : Text} (back : Text)

include name

/-- A mark that is no part of a name stands before the name. -/
theorem SmallName.mark_before {mark : Symbol} {later : Text} (outside : mark.isNamePart = false)
    (starts : mid ++ (word ++ back) = mark :: later) :
    ∃ others, mid = mark :: others ∧ later = others ++ (word ++ back) := by
  cases mid with
  | cons symbol others =>
      obtain ⟨rfl, rfl⟩ := List.cons.inj starts
      exact ⟨others, rfl, rfl⟩
  | nil =>
      obtain ⟨first, run, rfl, -, part, -⟩ := name.exists_first
      rw [(List.cons.inj starts).1, outside] at part
      cases part

/-- The constants of a receiver end before a small name. -/
theorem SmallName.constantsLength_append (linked : Linked mid) (fuel : Nat) :
    constantsLength fuel (mid ++ (word ++ back)) = constantsLength fuel mid := by
  induction fuel generalizing mid with
  | zero => rfl
  | succ fuel ih =>
      cases starts : Text.startsWith (mid ++ (word ++ back)) "::" with
      | false =>
          have none : Text.startsWith mid "::" = false := by
            rw [Bool.eq_false_iff]
            intro colons
            have longer := (List.isPrefixOf_iff_prefix.mp colons).trans (List.prefix_append mid (word ++ back))
            rw [Text.startsWith, List.isPrefixOf_iff_prefix.mpr longer] at starts
            cases starts
          rw [constantsLength_of_not_colons _ starts, constantsLength_of_not_colons _ none]
      | true =>
          obtain ⟨later, whole⟩ := List.isPrefixOf_iff_prefix.mp starts
          have two : mid ++ (word ++ back) = .glyph ':' :: .glyph ':' :: later := whole.symm
          obtain ⟨others, rfl, tail⟩ := name.mark_before back (by decide) two
          obtain ⟨rest, rfl, rfl⟩ := name.mark_before back (by decide) tail.symm
          have here := constantsLength_colons fuel (rest ++ (word ++ back))
          have alone := constantsLength_colons fuel rest
          change constantsLength (fuel + 1) (.glyph ':' :: .glyph ':' :: (rest ++ (word ++ back))) = _ at here
          change constantsLength (fuel + 1) (.glyph ':' :: .glyph ':' :: rest) = _ at alone
          rw [List.cons_append, List.cons_append, here, alone]
          cases rest with
          | nil =>
              obtain ⟨first, run, rfl, -, -, small⟩ := name.exists_first
              rw [List.nil_append, List.cons_append, List.head?_cons, Option.any_some, small]
              rfl
          | cons first others =>
              have inside := linked.tail.tail.wordLength_append (List.cons_ne_nil _ _) (word ++ back)
              rw [inside.1, List.drop_append_of_le_length (Nat.le_of_lt inside.2), ih (linked.tail.tail.drop _)]
              rfl

end Receivers

namespace Exchange

variable {word other : Text} {mid : Text}

theorem pathLength_eq (exchange : Exchange word other) (linked : Linked mid) (nonempty : mid ≠ []) (back : Text) :
    pathLength (mid ++ (word ++ back)) = pathLength (mid ++ (other ++ back)) ∧
      pathLength (mid ++ (word ++ back)) ≤ mid.length := by
  have uniform : Uniform isPathPart := .or .word (.eq (.glyph ':') (by decide))
  have fuel := (exchange.shape mid back).takeWhile_length uniform
  obtain ⟨first, shorter⟩ := linked.wordLength_append nonempty (word ++ back)
  obtain ⟨second, -⟩ := linked.wordLength_append nonempty (other ++ back)
  have constants :=
    constantsLength_le ((mid ++ (other ++ back)).takeWhile isPathPart).length (mid.drop (wordLength mid))
  rw [List.length_drop] at constants
  rw [pathLength, pathLength, fuel, first, second, List.drop_append_of_le_length (Nat.le_of_lt shorter),
    List.drop_append_of_le_length (Nat.le_of_lt shorter),
    exchange.name.constantsLength_append back (linked.drop _),
    exchange.otherName.constantsLength_append back (linked.drop _)]
  exact ⟨rfl, by omega⟩

theorem receiver?_eq (exchange : Exchange word other) (linked : Linked mid) (nonempty : mid ≠ []) (back : Text) :
    receiver? (mid ++ (word ++ back)) = receiver? (mid ++ (other ++ back)) := by
  have path := (exchange.pathLength_eq linked nonempty back).1
  have first := (linked.wordLength_append nonempty (word ++ back)).1
  have second := (linked.wordLength_append nonempty (other ++ back)).1
  have shape := exchange.shape mid back
  rw [Source.receiver?_eq, Source.receiver?_eq, first, second, path]
  generalize pathLength (mid ++ (other ++ back)) = length
  have before := (shape.drop length).takeWhile_length .gap
  simp only [before]
  generalize (((mid ++ (other ++ back)).drop length).takeWhile isGap).length = gaps
  have dot := (shape.drop (length + gaps)).head?_eq_iff (.glyph '.') (by decide)
  have after := (shape.drop (length + gaps + 1)).takeWhile_length .gap
  simp only [dot, after]

/-- A receiver and its dot stand before the exchanged name. -/
theorem receiver?_le (exchange : Exchange word other) (linked : Linked mid) (nonempty : mid ≠ []) {back : Text}
    {length skipped : Nat} (found : receiver? (mid ++ (word ++ back)) = some (length, skipped)) :
    skipped ≤ mid.length := by
  have within := (exchange.pathLength_eq linked nonempty back).2
  have isPath : length = pathLength (mid ++ (word ++ back)) := by
    rw [Source.receiver?_eq] at found
    split_ifs at found with noWord
    dsimp only at found
    split_ifs at found
    cases found
    rfl
  obtain ⟨path, before, after, rest, whole, -, beforeGaps, afterGaps, -, rfl, rfl⟩ := receiver?_sound found
  obtain ⟨first, run, rfl, -, part, -⟩ := exchange.name.exists_first
  have outside : ∀ symbol ∈ before ++ .glyph '.' :: after, symbol.isNamePart = false := by
    intro symbol member
    rw [List.mem_append, List.mem_cons] at member
    rcases member with inBefore | rfl | inAfter
    · exact isNamePart_of_isBlank (isBlank_of_isGap (beforeGaps symbol inBefore))
    · decide
    · exact isNamePart_of_isBlank (isBlank_of_isGap (afterGaps symbol inAfter))
  have regrouped : mid ++ (first :: run ++ back) = (path ++ (before ++ .glyph '.' :: after)) ++ rest := by
    rw [whole]
    simp
  rcases List.append_eq_append_iff.mp regrouped with ⟨more, headEq, nameEq⟩ | ⟨more, midEq, -⟩
  · cases more with
    | nil =>
        rw [headEq, List.append_nil]
    | cons symbol others =>
        -- the name would start among the gaps and the dot
        obtain ⟨rfl, -⟩ := List.cons.inj nameEq
        have inside : first ∈ before ++ .glyph '.' :: after := by
          rcases List.append_eq_append_iff.mp headEq with ⟨near, -, separator⟩ | ⟨near, pathEq, separator⟩
          · rw [separator]
            simp
          · have none : near = [] := by
              rw [← isPath, pathEq, List.length_append] at within
              exact List.length_eq_zero_iff.mp (by omega)
            rw [none, List.nil_append] at separator
            rw [← separator]
            exact List.mem_cons_self
        rw [outside first inside] at part
        cases part
  · have size := congrArg List.length midEq
    rw [List.length_append] at size
    omega

end Exchange

namespace Header

/-- Where a head ends, and whether no `end` closes its method. -/
def reach (header : Header) : Nat × Bool :=
  (header.headerEnd, header.endless)

theorem ofName_reach {left right : Text} (shape : SameShape left right) (receiver otherReceiver : Option Text)
    (nameBegin nameEnd : Nat) :
    (ofName left receiver nameBegin nameEnd).reach = (ofName right otherReceiver nameBegin nameEnd).reach := by
  have same := shape.parametersAt_eq nameEnd
  have endless := (shape.drop (parametersAt right nameEnd).2).isEndless_eq
  simp only [reach, ofName, same, endless]

theorem read?_no_gap {text : Text} (stops : ∀ first ∈ text.head?, isGap first = false) :
    read? ("def" ++ text) = none := by
  have none : ((("def" : Text) ++ text).drop 3).takeWhile isGap = [] := by
    change text.takeWhile isGap = []
    cases text with
    | nil => rfl
    | cons first others => exact List.takeWhile_cons_of_neg (by simp [stops first rfl])
  rw [read?, none]
  simp

variable {word other mid : Text}

theorem nameLength_exchange (exchange : Exchange word other) (mid back : Text) :
    nameLength (mid ++ (word ++ back)) = nameLength (mid ++ (other ++ back)) :=
  (exchange.shape mid back).nameLength_eq (exchange.starts_eq mid back)

/-- The head of a method ends at the same place if a called name in it is exchanged, or its own name after a dot. -/
theorem read?_exchange (exchange : Exchange word other) (linked : Linked mid) (nonempty : mid ≠ []) (back : Text) :
    (read? ("def" ++ (mid ++ (word ++ back)))).map reach = (read? ("def" ++ (mid ++ (other ++ back)))).map reach := by
  obtain ⟨gap, tail, rfl, gapEq, gaps, stops⟩ := exists_run isGap mid
  have more : tail ≠ [] := by
    rintro rfl
    have shorter := (linked.takeWhile_append nonempty isGap (by decide) []).2
    rw [gapEq, List.append_nil] at shorter
    exact Nat.lt_irrefl _ shorter
  have tailLinked : Linked tail := by
    have dropped := linked.drop gap.length
    rwa [List.drop_left] at dropped
  have tailStops (rest : Text) : ∀ first ∈ (tail ++ rest).head?, isGap first = false := by
    rw [List.head?_append_of_ne_nil _ more]
    exact stops
  rw [List.append_assoc, List.append_assoc]
  by_cases someGap : gap = []
  · rw [someGap, List.nil_append, List.nil_append, read?_no_gap (tailStops _), read?_no_gap (tailStops _)]
  have shape : SameShape ("def" ++ (gap ++ (tail ++ (word ++ back)))) ("def" ++ (gap ++ (tail ++ (other ++ back)))) :=
    (SameShape.refl _).append ((SameShape.refl _).append (exchange.shape tail back))
  have plain : (plain? ("def" ++ (gap ++ (tail ++ (word ++ back)))) (3 + gap.length)).map reach =
      (plain? ("def" ++ (gap ++ (tail ++ (other ++ back)))) (3 + gap.length)).map reach := by
    rw [plain?_eq, plain?_eq, nameLength_exchange exchange tail back]
    split_ifs
    · rfl
    · exact congrArg some (ofName_reach shape none none _ _)
  rw [read?_eq someGap gaps (tailStops _), read?_eq someGap gaps (tailStops _), exchange.receiver?_eq tailLinked more]
  cases received : receiver? (tail ++ (other ++ back)) with
  | none => exact plain
  | some receiver =>
      obtain ⟨length, skipped⟩ := receiver
      rw [← exchange.receiver?_eq tailLinked more] at received
      have within := exchange.receiver?_le tailLinked more received
      have named := nameLength_exchange exchange (tail.drop skipped) back
      dsimp only
      rw [List.drop_append_of_le_length within, List.drop_append_of_le_length within, named]
      split_ifs
      · exact plain
      · exact congrArg some (ofName_reach shape _ _ _ _)

end Header

end AccessorLint.Source
