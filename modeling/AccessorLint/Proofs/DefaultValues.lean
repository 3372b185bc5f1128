import Mathlib
import AccessorLint.Proofs.Contents
import AccessorLint.Proofs.Rendering
set_option autoImplicit false

/-!
Default values of parameters, and what the scan makes of them.

A default value is an integer, a string, or an array or a hash of default values, nested to any depth.  The copy of a
value shows its brackets and commas and hides what its strings hold.  So no definition starts in the copy, it has no
parentheses, and the count of arguments leaves it as it came to it.
-/

namespace AccessorLint.Source

open AccessorLint.Symbol (newline)

/-! ### Values -/

structure DecimalInteger where
  negative : Bool
  digits : Text
  nonempty : digits ≠ []
  isDigits : ∀ symbol ∈ digits, symbol.satisfies Char.isDigit = true

inductive DefaultValue where
  | number (numeral : DecimalInteger)
  | string (content : Text)
  | array (elements : List DefaultValue)
  | hash (entries : List ({ key // AsciiName key } × DefaultValue))

/-- A parameter, perhaps with a default value. -/
structure Parameter where
  name : Text
  isName : AsciiName name
  free : name ≠ "def"
  value : Option DefaultValue

def DecimalInteger.render (numeral : DecimalInteger) : Text :=
  if numeral.negative then .glyph '-' :: numeral.digits else numeral.digits

/-- The content of a string with a backslash before each symbol that would not stand for itself. -/
def escapedContent : Text → Text
  | [] => []
  | symbol :: rest =>
      if symbol.isOneOf "\\\"#" then .glyph '\\' :: symbol :: escapedContent rest else symbol :: escapedContent rest

/-- What the copy shows for the content of a string. -/
def hiddenContent (content : Text) : Text :=
  (escapedContent content).map hidden

def keyed (key value : Text) : Text :=
  key ++ (": " ++ value)

-- Text and copy of a value differ only in its strings, so both are written by one function.
mutual

/-- The text of a value, for a way to write what a string holds. -/
def DefaultValue.written (quoted : Text → Text) : DefaultValue → Text
  | .number numeral => numeral.render
  | .string content => .glyph '"' :: (quoted content ++ [.glyph '"'])
  | .array elements => "[" ++ (Text.joined ", " (DefaultValue.writtenElements quoted elements) ++ "]")
  | .hash entries => "\x7b" ++ (Text.joined ", " (DefaultValue.writtenEntries quoted entries) ++ "\x7d")

def DefaultValue.writtenElements (quoted : Text → Text) : List DefaultValue → List Text
  | [] => []
  | value :: others => value.written quoted :: DefaultValue.writtenElements quoted others

def DefaultValue.writtenEntries (quoted : Text → Text) : List ({ key // AsciiName key } × DefaultValue) → List Text
  | [] => []
  | (key, value) :: others => keyed key.val (value.written quoted) :: DefaultValue.writtenEntries quoted others

end

def Parameter.written (quoted : Text → Text) (parameter : Parameter) : Text :=
  match parameter.value with
  | none => parameter.name
  | some value => parameter.name ++ (" = " ++ value.written quoted)

namespace DefaultValue

theorem writtenElements_eq_map (quoted : Text → Text) (elements : List DefaultValue) :
    writtenElements quoted elements = elements.map (written quoted) := by
  induction elements with
  | nil => rfl
  | cons value others ih => rw [writtenElements, ih, List.map_cons]

theorem writtenEntries_eq_map (quoted : Text → Text) (entries : List ({ key // AsciiName key } × DefaultValue)) :
    writtenEntries quoted entries = entries.map fun entry => keyed entry.1.val (entry.2.written quoted) := by
  induction entries with
  | nil => rfl
  | cons entry others ih => rw [writtenEntries, ih, List.map_cons]

@[induction_eliminator]
theorem nested_induction {motive : DefaultValue → Prop} (number : ∀ numeral, motive (.number numeral))
    (string : ∀ content, motive (.string content))
    (array : ∀ elements, (∀ element ∈ elements, motive element) → motive (.array elements))
    (hash : ∀ entries, (∀ entry ∈ entries, motive entry.2) → motive (.hash entries)) (value : DefaultValue) :
    motive value :=
  match value with
  | .number numeral => number numeral
  | .string content => string content
  | .array elements => array elements fun element _ => nested_induction number string array hash element
  | .hash entries => hash entries fun entry _ => nested_induction number string array hash entry.2
termination_by value
decreasing_by
  · have smaller := List.sizeOf_lt_of_mem ‹_ ∈ elements›
    simp only [DefaultValue.array.sizeOf_spec]
    omega
  · have smaller := List.sizeOf_lt_of_mem ‹_ ∈ entries›
    have inside : sizeOf entry.2 < sizeOf entry := by
      cases entry
      simp
    simp only [DefaultValue.hash.sizeOf_spec]
    omega

end DefaultValue

/-! ### What the copy shows -/

theorem Shows.quoted {quote : Symbol} (isQuote : isQuote quote = true) {body : Text}
    (encloses : QuotedBody quote body) :
    Shows (quote :: (body ++ [quote])) (quote :: (body.map hidden ++ [quote])) := by
  intro behind later
  let scan : Blanking := ⟨behind, quote :: (body ++ [quote]) ++ later, [], []⟩
  have ahead : scan.ahead = quote :: (body ++ quote :: later) := by simp [scan]
  obtain ⟨image, passed, after, pending⟩ := Blanking.step_quoted isQuote encloses ahead
  have behindEq : (quote :: (body ++ [quote])).reverse ++ behind = quote :: (body.reverse ++ quote :: behind) := by simp
  change scan.rest = _
  rw [Blanking.rest_eq, image, behindEq]
  congr 1
  change Blanking.rest ⟨scan.step.behind, scan.step.ahead, [], scan.step.pending⟩ = _
  rw [passed, after, pending]

theorem quotedBody_escaped (content : Text) : QuotedBody (.glyph '"') (escapedContent content) := by
  induction content with
  | nil => exact .nil
  | cons symbol rest ih =>
      rw [escapedContent]
      split_ifs with special
      · exact .escaped symbol ih
      · simp only [Symbol.isOneOf, String.reduceToList, List.any_cons, List.any_nil, Bool.or_false, Bool.or_eq_true,
          beq_iff_eq, not_or] at special
        exact .plain special.2.1 special.1 (Or.inr (Or.inl special.2.2)) ih

/-- Even a `def` may be a key. -/
theorem Inert.key {word text : Text} (name : AsciiName word) (inert : Inert text) : Inert (keyed word text) := by
  intro behind rest stops
  have noHead : Header.read? (word ++ (Text.ofString ": " ++ (text ++ rest))) = none := by
    refine Header.read?_word name.identifier.words (Inert.stops_cons (by decide) _) (Or.inr ?_)
    intro next member
    cases member
    decide
  have regrouped : keyed word text ++ rest = word ++ (Text.ofString ": " ++ (text ++ rest)) := by simp [keyed]
  have value : Inert (Text.ofString ": " ++ text) := inert.after (by decide)
  have later := value (word.reverse ++ behind) rest stops
  rw [List.append_assoc] at later
  rw [regrouped, Inert.within_word name.identifier noHead, later, keyed, @List.reverse_append _ word, List.append_assoc]

/-! ### Stretches of a parameter list -/

/-- How a stretch of a parameter list stands in the copy: no definition starts there, and it has no parentheses. -/
structure Stretch (text copy : Text) : Prop where
  shows : Shows text copy
  inert : Inert copy
  bare : ∀ symbol ∈ copy, symbol.isOneOf "()" = false

namespace Stretch

variable {text copy left right leftCopy rightCopy word : Text}

theorem append (first : Stretch left leftCopy) (second : Stretch right rightCopy)
    (stops : ∀ next ∈ rightCopy.head?, next.isWord = false) : Stretch (left ++ right) (leftCopy ++ rightCopy) where
  shows := first.shows.append second.shows
  inert := first.inert.append second.inert stops
  bare := List.forall_mem_append.mpr ⟨first.bare, second.bare⟩

theorem after {front : Text} (code : IsCode front) (others : .glyph 'd' ∉ front)
    (bare : ∀ symbol ∈ front, symbol.isOneOf "()" = false) (later : Stretch text copy) :
    Stretch (front ++ text) (front ++ copy) where
  shows := code.append later.shows
  inert := later.inert.after others
  bare := List.forall_mem_append.mpr ⟨bare, later.bare⟩

theorem nil : Stretch [] [] :=
  ⟨IsCode.of_plain (by simp), .nil, by simp⟩

theorem bare_of_isWord {symbol : Symbol} (isWord : symbol.isWord = true) : symbol.isOneOf "()" = false := by
  have opening : symbol ≠ .glyph '(' := Symbol.ne_of_property isWord (by decide)
  have closing : symbol ≠ .glyph ')' := Symbol.ne_of_property isWord (by decide)
  simp [Symbol.isOneOf, opening, closing]

theorem of_name (name : AsciiName word) (free : word ≠ "def") : Stretch word word where
  shows := IsCode.word name
  inert := .of_name name free
  bare := fun symbol member => bare_of_isWord (name.identifier.words symbol member)

theorem key (name : AsciiName word) (value : Stretch text copy) : Stretch (keyed word text) (keyed word copy) where
  shows := (IsCode.word name).append ((IsCode.of_plain (by decide)).append value.shows)
  inert := .key name value.inert
  bare := List.forall_mem_append.mpr ⟨fun symbol member => bare_of_isWord (name.identifier.words symbol member),
    List.forall_mem_append.mpr ⟨by decide, value.bare⟩⟩

theorem joined {α : Type} {first second : α → Text} {list : List α}
    (each : ∀ value ∈ list, Stretch (first value) (second value)) :
    Stretch (Text.joined ", " (list.map first)) (Text.joined ", " (list.map second)) := by
  induction list with
  | nil => exact nil
  | cons value others ih =>
      have here := each value List.mem_cons_self
      have there := ih fun other member => each other (List.mem_cons_of_mem _ member)
      cases others with
      | nil => simpa only [List.map_cons, List.map_nil, Text.joined_singleton] using here
      | cons next later =>
          have divider : IsCode ", " := .of_plain (by decide)
          rw [List.map_cons, List.map_cons, List.map_cons, List.map_cons, Text.joined_cons_cons, Text.joined_cons_cons]
          exact here.append (there.after divider (by decide) (by decide)) (Inert.stops_cons (by decide) _)

end Stretch

/-! ### Counting arguments -/

/-- Whether the count of arguments leaves a text as it came to it, from a depth on. -/
def Balanced (least : Int) (text : Text) : Prop :=
  ∀ depth ended, least ≤ depth → text.foldl ArgumentCount.read ⟨depth, ended, true⟩ = ⟨depth, ended, true⟩

namespace Balanced

variable {least : Int} {text left right : Text}

theorem nil : Balanced least [] :=
  fun _ _ _ => rfl

theorem append (first : Balanced least left) (second : Balanced least right) : Balanced least (left ++ right) := by
  intro depth ended deep
  rw [List.foldl_append, first depth ended deep, second depth ended deep]

theorem deeper (balanced : Balanced 0 text) : Balanced 1 text :=
  fun depth ended deep => balanced depth ended (by omega)

/-- Whether a symbol is neither a comma nor a bracket. -/
def isUncounted (symbol : Symbol) : Bool :=
  symbol != .glyph ',' && !symbol.isOneOf "([\x7b" && !symbol.isOneOf ")]\x7d"

theorem of_uncounted (uncounted : ∀ symbol ∈ text, isUncounted symbol = true) : Balanced least text := by
  induction text with
  | nil => exact nil
  | cons symbol others ih =>
      intro depth ended deep
      have here := uncounted symbol List.mem_cons_self
      simp only [isUncounted, Bool.and_eq_true, bne_iff_ne, Bool.not_eq_true'] at here
      obtain ⟨⟨noComma, noOpening⟩, noClosing⟩ := here
      have same : ArgumentCount.read ⟨depth, ended, true⟩ symbol = ⟨depth, ended, true⟩ := by
        simp [ArgumentCount.read, noComma, noOpening, noClosing]
      have later := ih fun other member => uncounted other (List.mem_cons_of_mem _ member)
      rw [List.foldl_cons, same, later depth ended deep]

theorem uncounted_of_isWord {symbol : Symbol} (isWord : symbol.isWord = true) : isUncounted symbol = true := by
  have content := isContent_of_isWord isWord
  rw [isContent, Bool.and_eq_true] at content
  exact content.1

/-- Inside brackets a comma ends no argument. -/
theorem comma : Balanced 1 ", " := by
  intro depth ended deep
  have inside : (depth == 0) = false := by simpa using (by omega : depth ≠ 0)
  have passed : ArgumentCount.read ⟨depth, ended, true⟩ (.glyph ',') = ⟨depth, ended, true⟩ := by
    simp only [ArgumentCount.read, inside, Bool.and_false, Bool.false_eq_true, if_false]
    rfl
  change ArgumentCount.read (ArgumentCount.read ⟨depth, ended, true⟩ (.glyph ',')) (.glyph ' ') = _
  rw [passed]
  rfl

theorem joined {parts : List Text} (each : ∀ part ∈ parts, Balanced 0 part) : Balanced 1 (Text.joined ", " parts) := by
  induction parts with
  | nil => exact nil
  | cons first others ih =>
      have here := (each first List.mem_cons_self).deeper
      cases others with
      | nil => rwa [Text.joined_singleton]
      | cons next later =>
          rw [Text.joined_cons_cons]
          exact here.append (comma.append (ih fun part member => each part (List.mem_cons_of_mem _ member)))

theorem bracketed {opening closing : Text}
    (opens : ∀ depth ended, opening.foldl ArgumentCount.read ⟨depth, ended, true⟩ = ⟨depth + 1, ended, true⟩)
    (closes : ∀ depth ended, closing.foldl ArgumentCount.read ⟨depth, ended, true⟩ = ⟨depth - 1, ended, true⟩)
    (inner : Balanced 1 text) : Balanced 0 (opening ++ (text ++ closing)) := by
  intro depth ended deep
  rw [List.foldl_append, List.foldl_append, opens, inner (depth + 1) ended (by omega), closes, Int.add_sub_cancel]

end Balanced

/-! ### Values and parameters in the copy -/

theorem DecimalInteger.symbols (numeral : DecimalInteger) {symbol : Symbol} (member : symbol ∈ numeral.render) :
    symbol = .glyph '-' ∨ symbol.satisfies Char.isDigit = true := by
  rw [render] at member
  split_ifs at member
  · exact (List.mem_cons.mp member).imp_right (numeral.isDigits symbol)
  · exact Or.inr (numeral.isDigits symbol member)

theorem isWord_of_isDigit {symbol : Symbol} (digit : symbol.satisfies Char.isDigit = true) : symbol.isWord = true := by
  apply isWord_of_isNamePart
  cases symbol with
  | glyph char =>
      change char.isDigit = true at digit
      change (char.isAlphanum || char == '_') = true
      simp [Char.isAlphanum, digit]
  | stray low => cases digit

theorem mem_hidden {content : Text} {symbol : Symbol}
    (member : symbol ∈ Symbol.glyph '"' :: (hiddenContent content ++ [.glyph '"'])) :
    symbol = .glyph '"' ∨ symbol = newline ∨ symbol = .glyph ' ' := by
  rw [List.mem_cons, List.mem_append, List.mem_singleton] at member
  rcases member with opening | inside | closing
  · exact Or.inl opening
  · obtain ⟨original, -, rfl⟩ := List.mem_map.mp inside
    rw [hidden]
    split_ifs
    · exact Or.inr (Or.inl rfl)
    · exact Or.inr (Or.inr rfl)
  · exact Or.inl closing

namespace DefaultValue

theorem number_stretch (numeral : DecimalInteger) : Stretch numeral.render numeral.render := by
  have code : IsCode numeral.render := by
    apply IsCode.of_plain
    intro symbol member
    rcases numeral.symbols member with rfl | digit
    · decide
    · exact isPlain_of_isWord (isWord_of_isDigit digit)
  have others : .glyph 'd' ∉ numeral.render := by
    intro member
    rcases numeral.symbols member with minus | digit
    · cases minus
    · cases digit
  have bare : ∀ symbol ∈ numeral.render, symbol.isOneOf "()" = false := by
    intro symbol member
    rcases numeral.symbols member with rfl | digit
    · decide
    · exact Stretch.bare_of_isWord (isWord_of_isDigit digit)
  exact ⟨code, .of_absent others, bare⟩

theorem string_stretch (content : Text) :
    Stretch (.glyph '"' :: (escapedContent content ++ [.glyph '"']))
      (.glyph '"' :: (hiddenContent content ++ [.glyph '"'])) := by
  have others : .glyph 'd' ∉ Symbol.glyph '"' :: (hiddenContent content ++ [.glyph '"']) := by
    intro member
    rcases mem_hidden member with quote | line | space
    · cases quote
    · cases line
    · cases space
  have bare : ∀ symbol ∈ Symbol.glyph '"' :: (hiddenContent content ++ [.glyph '"']), symbol.isOneOf "()" = false := by
    intro symbol member
    rcases mem_hidden member with rfl | rfl | rfl <;> decide
  exact ⟨.quoted (by decide) (quotedBody_escaped content), .of_absent others, bare⟩

/-- A value stands in the copy with its strings hidden. -/
theorem stretch (value : DefaultValue) : Stretch (value.written escapedContent) (value.written hiddenContent) := by
  have bracket : ∀ {symbol : Symbol}, isPlain symbol = true → IsCode [symbol] := by
    intro symbol plain
    exact .of_plain (by simpa using plain)
  induction value with
  | number numeral => exact number_stretch numeral
  | string content => exact string_stretch content
  | array elements ih =>
      have closed := (Stretch.joined ih).append (Stretch.nil.after (bracket (by decide)) (by decide) (by decide))
        (Inert.stops_cons (by decide : (Symbol.glyph ']').isWord = false) [])
      rw [written, written, writtenElements_eq_map, writtenElements_eq_map]
      exact closed.after (bracket (by decide)) (by decide) (by decide)
  | hash entries ih =>
      have list := Stretch.joined fun entry member => (ih entry member).key entry.1.property
      have closed := list.append (Stretch.nil.after (bracket (by decide)) (by decide) (by decide))
        (Inert.stops_cons (by decide : (Symbol.glyph '\x7d').isWord = false) [])
      rw [written, written, writtenEntries_eq_map, writtenEntries_eq_map]
      exact closed.after (bracket (by decide)) (by decide) (by decide)

/-- The commas of a value stand in its brackets. -/
theorem balanced (value : DefaultValue) : Balanced 0 (value.written hiddenContent) := by
  induction value with
  | number numeral =>
      apply Balanced.of_uncounted
      intro symbol member
      rcases numeral.symbols member with rfl | digit
      · decide
      · exact Balanced.uncounted_of_isWord (isWord_of_isDigit digit)
  | string content =>
      apply Balanced.of_uncounted
      intro symbol member
      rcases mem_hidden member with rfl | rfl | rfl <;> decide
  | array elements ih =>
      rw [written, writtenElements_eq_map]
      refine .bracketed (fun _ _ => rfl) (fun _ _ => rfl) (.joined ?_)
      rwa [List.forall_mem_map]
  | hash entries ih =>
      rw [written, writtenEntries_eq_map]
      refine .bracketed (fun _ _ => rfl) (fun _ _ => rfl) (.joined ?_)
      rw [List.forall_mem_map]
      intro entry member
      have key : Balanced 0 entry.1.val := .of_uncounted fun symbol inKey =>
        Balanced.uncounted_of_isWord (entry.1.property.identifier.words symbol inKey)
      have colon : Balanced 0 ": " := .of_uncounted (by decide)
      exact key.append (colon.append (ih entry member))

end DefaultValue

namespace Parameter

theorem stretch (parameter : Parameter) :
    Stretch (parameter.written escapedContent) (parameter.written hiddenContent) := by
  have name := Stretch.of_name parameter.isName parameter.free
  unfold written
  cases parameter.value with
  | none => exact name
  | some value =>
      have space : IsCode " " := .of_plain (by decide)
      have equals : IsCode " = " := IsCode.equals.append space
      exact name.append (value.stretch.after equals (by decide) (by decide)) (Inert.stops_cons (by decide) _)

theorem isArgument (parameter : Parameter) : IsArgument (parameter.written hiddenContent) := by
  have name := IsArgument.of_name parameter.isName
  unfold written
  cases parameter.value with
  | none => exact name
  | some value =>
      have equals : Balanced 0 " = " := .of_uncounted (by decide)
      intro ended
      dsimp only
      rw [List.foldl_append, name ended, (equals.append value.balanced) 0 ended (Int.le_refl 0)]

end Parameter

end AccessorLint.Source
