import Mathlib
import AccessorLint.Proofs.DefaultValues
set_option autoImplicit false

/-!
Heads of methods that are written from their parts.

A head has a receiver or none, a name with a mark or none, and parameters with default values.  The scan of a method
with such a head and no body finds this method and no other, and reads from it the parts from which it was written.
-/

namespace AccessorLint.Source

open AccessorLint.Symbol (newline)

/-! ### Heads -/

structure Constant where
  text : Text
  isName : AsciiName text
  isUpper : text.head?.any (Symbol.satisfies Char.isUpper) = true

/-- What stands before the dot of a method on an object. -/
inductive Receiver where
  | self
  | path (first : Constant) (others : List Constant)

/-- The mark at the end of a method name. -/
inductive NameMark where
  | question
  | exclamation
  | equals

structure MethodName where
  word : Text
  isName : AsciiName word
  free : word ≠ "def"
  mark : Option NameMark

structure MethodHead where
  receiver : Option Receiver
  name : MethodName
  parameters : List Parameter

def scopes (constants : List Constant) : Text :=
  constants.flatMap fun constant => "::" ++ constant.text

def Receiver.render : Receiver → Text
  | .self => "self"
  | .path first others => first.text ++ scopes others

def NameMark.symbol : NameMark → Symbol
  | .question => .glyph '?'
  | .exclamation => .glyph '!'
  | .equals => .glyph '='

def markText : Option NameMark → Text
  | none => []
  | some mark => [mark.symbol]

def MethodName.render (name : MethodName) : Text :=
  name.word ++ markText name.mark

namespace MethodHead

/-- What stands between the `def` and the name. -/
def lead (head : MethodHead) : Text :=
  match head.receiver with
  | none => " "
  | some receiver => " " ++ (receiver.render ++ ".")

def list (quoted : Text → Text) (head : MethodHead) : Text :=
  Text.joined ", " (head.parameters.map (Parameter.written quoted))

/-- The text of a head, for a way to write what a string holds. -/
def written (quoted : Text → Text) (head : MethodHead) : Text :=
  ("def" : Text) ++ (head.lead ++ (head.name.render ++ .glyph '(' :: (head.list quoted ++ [.glyph ')'])))

def render (head : MethodHead) : Text :=
  head.written escapedContent

end MethodHead

/-! ### Receivers -/

theorem scopes_stops (constants : List Constant) : ∀ next ∈ (scopes constants).head?, next.isWord = false := by
  cases constants with
  | nil => simp [scopes]
  | cons constant others => exact Inert.stops_cons (by decide) _

theorem scopes_cons (constant : Constant) (others : List Constant) :
    scopes (constant :: others) = Text.ofString "::" ++ (constant.text ++ scopes others) := by
  rw [scopes, List.flatMap_cons, List.append_assoc]
  rfl

theorem constantsLength_scopes (constants : List Constant) {fuel : Nat} (enough : constants.length ≤ fuel) :
    constantsLength fuel (scopes constants) = (scopes constants).length := by
  induction constants generalizing fuel with
  | nil => exact constantsLength_of_not_colons fuel rfl
  | cons constant others ih =>
      obtain ⟨less, rfl⟩ : ∃ less, fuel = less + 1 := Nat.exists_eq_add_one.mpr (Nat.zero_lt_of_lt enough)
      have word : wordLength (constant.text ++ scopes others) = constant.text.length := by
        rw [wordLength_append_stop _ (scopes_stops others), constant.isName.identifier.wordLength_eq]
      have upper : (constant.text ++ scopes others).head?.any (Symbol.satisfies Char.isUpper) = true := by
        rw [List.head?_append_of_ne_nil _ constant.isName.identifier.ne_nil]
        exact constant.isUpper
      rw [scopes_cons, constantsLength_colons, if_pos upper, word, List.drop_left, ih (Nat.le_of_succ_le_succ enough),
        List.length_append, List.length_append]
      exact Nat.add_assoc _ _ _

theorem isPathPart_of_mem_scopes {constants : List Constant} {symbol : Symbol} (member : symbol ∈ scopes constants) :
    isPathPart symbol = true := by
  obtain ⟨constant, -, inside⟩ := List.mem_flatMap.mp member
  have colons : ∀ symbol ∈ Text.ofString "::", isPathPart symbol = true := by decide
  rcases List.mem_append.mp inside with colon | inName
  · exact colons symbol colon
  · exact isPathPart_of_isWord (constant.isName.identifier.words symbol inName)

theorem length_le_scopes (constants : List Constant) : constants.length ≤ (scopes constants).length := by
  induction constants with
  | nil => exact Nat.zero_le _
  | cons constant others ih =>
      rw [scopes_cons, List.length_append, List.length_append, List.length_cons]
      change _ ≤ 2 + _
      omega

theorem IsReceiver.scopes {word : Text} (identifier : IsIdentifier word) (constants : List Constant) :
    IsReceiver (word ++ scopes constants) := by
  have first : wordLength (word ++ Source.scopes constants) = word.length := by
    rw [wordLength_append_stop _ (scopes_stops constants), identifier.wordLength_eq]
  have run : (word ++ Source.scopes constants).takeWhile isPathPart = word ++ Source.scopes constants := by
    rw [List.takeWhile_eq_self_iff]
    intro symbol member
    rcases List.mem_append.mp member with inWord | inScopes
    · exact isPathPart_of_isWord (identifier.words symbol inWord)
    · exact isPathPart_of_mem_scopes inScopes
  constructor
  case word =>
      rw [first]
      exact Nat.ne_of_gt (List.length_pos_iff.mpr identifier.ne_nil)
  case whole =>
      have enough : constants.length ≤ (word ++ Source.scopes constants).length := by
        have := length_le_scopes constants
        rw [List.length_append]
        omega
      rw [pathLength, first, run, List.drop_left, constantsLength_scopes constants enough, List.length_append]

theorem Constant.ne_def (constant : Constant) : constant.text ≠ "def" := by
  intro same
  have upper := constant.isUpper
  rw [same] at upper
  cases upper

theorem Inert.scopes (constants : List Constant) : Inert (scopes constants) := by
  induction constants with
  | nil => exact .nil
  | cons constant others ih =>
      have here := (Inert.of_name constant.isName constant.ne_def).append ih (scopes_stops others)
      rw [scopes_cons]
      exact here.after (by decide)

namespace Receiver

theorem isReceiver (receiver : Receiver) : IsReceiver receiver.render := by
  cases receiver with
  | self => exact IsReceiver.scopes (by decide : AsciiName "self").identifier []
  | path first others => exact IsReceiver.scopes first.isName.identifier others

theorem inert (receiver : Receiver) : Inert receiver.render := by
  cases receiver with
  | self => exact .of_absent (by decide)
  | path first others => exact (Inert.of_name first.isName first.ne_def).append (.scopes others) (scopes_stops others)

end Receiver

/-! ### Names -/

theorem startsCharacter_of_word {previous : Symbol} (isWord : previous.isWord = true) (behind after : Text) :
    startsCharacter (previous :: behind) after = false := by
  have differs : ∀ {char : Char}, (Symbol.glyph char).isWord = false → previous ≠ .glyph char :=
    fun noWord => Symbol.ne_of_property isWord noWord
  have outside : previous.isOneOf " \t(,=[" = false := by
    simp only [Symbol.isOneOf, String.reduceToList, List.any_eq_false, beq_iff_eq, List.forall_mem_cons]
    refine ⟨differs (by decide), differs (by decide), differs (by decide), differs (by decide), differs (by decide),
      differs (by decide), ?_⟩
    simp
  cases after with
  | nil => rfl
  | cons character rest => simp [startsCharacter, outside]

/-- After a word a mark starts nothing but code. -/
theorem NameMark.read_symbol (mark : NameMark) {previous : Symbol} (isWord : previous.isWord = true)
    (behind after : Text) : Opening.read (previous :: behind) (mark.symbol :: after) = .code := by
  have inLine : previous ≠ .glyph '\n' := Symbol.ne_of_property isWord (by decide)
  cases mark with
  | question =>
      have noCharacter := startsCharacter_of_word isWord behind after
      simp [Opening.read, symbol, inLine, noCharacter, newline, isQuote, Symbol.isOneOf]
  | exclamation => exact Opening.read_plain _ (by decide) _
  | equals => simp [Opening.read, symbol, inLine, newline, isQuote, Symbol.isOneOf]

/-- What follows the word of a name is a mark or a parenthesis. -/
theorem markText_stops {property : Symbol → Bool}
    (outside : property (.glyph '?') = false ∧ property (.glyph '!') = false ∧ property (.glyph '=') = false ∧
      property (.glyph '(') = false) (mark : Option NameMark) (rest : Text) :
    ∀ next ∈ (markText mark ++ .glyph '(' :: rest).head?, property next = false := by
  intro next member
  obtain ⟨question, exclamation, equals, parenthesis⟩ := outside
  rcases mark with _ | _ | _ | _ <;> cases member
  · exact parenthesis
  · exact question
  · exact exclamation
  · exact equals

theorem markLength_markText (mark : Option NameMark) (rest : Text) :
    markLength (markText mark ++ .glyph '(' :: rest) = (markText mark).length := by
  rcases mark with _ | _ | _ | _ <;> rfl

/-- A word without a dot after it is no receiver. -/
theorem receiver?_undotted {word rest : Text} (identifier : IsIdentifier word)
    (stops : ∀ next ∈ rest.head?, isPathPart next = false) (noGap : ∀ next ∈ rest.head?, isGap next = false)
    (noDot : rest.head? ≠ some (.glyph '.')) : receiver? (word ++ rest) = none := by
  have whole := (IsReceiver.scopes identifier []).whole
  have nonempty := (IsReceiver.scopes identifier []).word
  have noWord : ∀ next ∈ rest.head?, next.isWord = false := fun next member =>
    (Bool.or_eq_false_iff.mp (stops next member)).1
  have noGaps : rest.takeWhile isGap = [] := takeWhile_run (by simp : ∀ symbol ∈ ([] : Text), isGap symbol = true) noGap
  change pathLength (word ++ []) = (word ++ []).length at whole
  change wordLength (word ++ []) ≠ 0 at nonempty
  rw [List.append_nil] at whole nonempty
  rw [receiver?_eq, wordLength_append_stop word noWord, if_neg nonempty, pathLength_append_stop word stops, whole,
    List.drop_left, noGaps]
  dsimp only
  rw [List.length_nil, Nat.add_zero, List.drop_left, if_neg noDot]

namespace MethodName

variable (name : MethodName)

theorem isCode : IsCode name.render := by
  have word : IsCode name.word := .word name.isName
  unfold render
  cases name.mark with
  | none => exact word.append (IsCode.of_plain (by simp [markText]))
  | some mark =>
      intro behind later
      obtain ⟨others, last, wordEq⟩ := (List.eq_nil_or_concat' name.word).resolve_left name.isName.identifier.ne_nil
      have isWord := name.isName.identifier.words last (by simp [wordEq])
      have passed : name.word.reverse ++ behind = last :: (others.reverse ++ behind) := by simp [wordEq]
      have reading := mark.read_symbol isWord (others.reverse ++ behind) later
      rw [List.append_assoc, word behind, passed, markText, List.singleton_append, IsCode.rest_of_code reading,
        ← passed]
      simp

theorem nameLength_eq (rest : Text) : nameLength (name.render ++ .glyph '(' :: rest) = name.render.length := by
  rw [render, List.append_assoc, nameLength_identifier name.isName.identifier (markText_stops (by decide) _ _),
    markLength_markText, List.length_append]

theorem unreceived (rest : Text) : Header.Unreceived (name.render ++ .glyph '(' :: rest) := by
  have noReceiver : receiver? (name.render ++ .glyph '(' :: rest) = none := by
    rw [render, List.append_assoc]
    apply receiver?_undotted name.isName.identifier (markText_stops (by decide) _ _) (markText_stops (by decide) _ _)
    intro dot
    cases @markText_stops (· == .glyph '.') (by decide) _ _ _ dot
  intro length skipped found
  rw [noReceiver] at found
  cases found

end MethodName

/-! ### Heads in the copy -/

namespace MethodHead

variable (head : MethodHead)

/-- What the copy shows for a head. -/
def copy : Text :=
  head.written hiddenContent

theorem isLead : Lead (head.receiver.map Receiver.render) head.lead := by
  unfold lead
  cases head.receiver with
  | none => exact .plain (by decide) (by decide)
  | some receiver =>
      exact @Lead.received " " receiver.render [] [] (by decide) (by decide) receiver.isReceiver (by simp) (by simp)

theorem list_stretch : Stretch (head.list escapedContent) (head.list hiddenContent) :=
  Stretch.joined fun parameter _ => parameter.stretch

theorem countArguments_list : countArguments (head.list hiddenContent) = head.parameters.length := by
  have each : ∀ argument ∈ head.parameters.map (Parameter.written hiddenContent), IsArgument argument := by
    rw [List.forall_mem_map]
    exact fun parameter _ => parameter.isArgument
  rw [list, countArguments_joined each, List.length_map]

theorem shows : Shows head.render head.copy := by
  have keyword : IsCode "def" := .word (by decide)
  have lead : IsCode head.lead := .of_plain fun _ member => head.isLead.isPlain member
  have opening : IsCode [.glyph '('] := .of_plain (by decide)
  have closing : IsCode [.glyph ')'] := .of_plain (by decide)
  have list := head.list_stretch.shows.append closing
  exact keyword.append (lead.append (head.name.isCode.append (opening.append list)))

/-- What follows the `def` in the copy. -/
def title : Text :=
  head.lead ++ (head.name.render ++ .glyph '(' :: (head.list hiddenContent ++ [.glyph ')']))

theorem inert_title : Inert head.title := by
  have parenthesis : Inert [.glyph ')'] := .of_absent (by decide)
  have list := head.list_stretch.inert.append parenthesis (Inert.stops_cons (by decide) [])
  have named : Inert (head.name.render ++ .glyph '(' :: (head.list hiddenContent ++ [.glyph ')'])) := by
    have others : .glyph 'd' ∉ markText head.name.mark ++ [.glyph '('] := by
      rcases head.name.mark with _ | _ | _ | _ <;> decide
    have marked := list.after others
    rw [List.append_assoc, List.singleton_append] at marked
    rw [MethodName.render, List.append_assoc]
    exact (Inert.of_name head.name.isName head.name.free).append marked (markText_stops (by decide) _ _)
  unfold title lead
  cases head.receiver with
  | none => exact named.after (by decide)
  | some receiver =>
      have dotted := named.after (by decide : .glyph 'd' ∉ Text.ofString ".")
      have received := receiver.inert.append dotted (Inert.stops_cons (by decide) _)
      dsimp only
      rw [List.append_assoc, List.append_assoc]
      exact received.after (by decide)

/-- The head that is read from the copy. -/
def header (rest : Text) : Header where
  name := head.name.render
  nameBegin := 3 + head.lead.length
  nameEnd := 3 + head.lead.length + head.name.render.length
  receiver := head.receiver.map Receiver.render
  parameters := head.list hiddenContent
  headerEnd := head.copy.length
  endless := Header.isEndless rest

theorem read?_copy (rest : Text) : Header.read? (head.copy ++ rest) = some (head.header rest) := by
  have absent : ∀ {symbol : Symbol}, symbol.isOneOf "()" = true → symbol ∉ head.list hiddenContent := by
    intro symbol isParenthesis member
    rw [head.list_stretch.bare symbol member] at isParenthesis
    cases isParenthesis
  have nonempty : head.name.render ≠ [] := by
    simp [MethodName.render, head.name.isName.identifier.ne_nil]
  have read := Header.read?_complete head.isLead nonempty
    (head.name.nameLength_eq (head.list hiddenContent ++ .glyph ')' :: rest)) fun _ => head.name.unreceived _
  have whole : head.copy ++ rest = ("def" : Text) ++ (head.lead ++ (head.name.render ++
      .glyph '(' :: (head.list hiddenContent ++ .glyph ')' :: rest))) := by simp [copy, written]
  have size : head.copy.length =
      3 + head.lead.length + head.name.render.length + ((head.list hiddenContent).length + 2) := by
    simp [copy, written, Text.ofString]
    omega
  have ended : (Symbol.glyph '(' :: (head.list hiddenContent ++ .glyph ')' :: rest)).drop
      ((head.list hiddenContent).length + 2) = rest := by
    rw [List.drop_succ_cons, ← List.drop_drop, List.drop_left, List.drop_one, List.tail_cons]
  rw [whole, read, Header.written, Header.parametersAt_list (absent (by decide)) (absent (by decide)), header, size]
  dsimp only
  rw [ended]

theorem opens_copy (rest : Text) : Definition.opens [] (head.copy ++ rest) = true := by
  obtain ⟨others, spaced⟩ : ∃ others, head.lead = .glyph ' ' :: others := by
    unfold lead
    cases head.receiver with
    | none => exact ⟨_, rfl⟩
    | some receiver => exact ⟨_, rfl⟩
  obtain ⟨more, whole⟩ : ∃ more, head.copy ++ rest = ("def" : Text) ++ .glyph ' ' :: more := by
    rw [copy, written, spaced]
    exact ⟨_, rfl⟩
  have nothing : Divided [] := fun _ member => by cases member
  have place := nothing.isKeywordPlace (.cons (by decide : divides (.glyph ' ') = true) more)
  rw [whole]
  change (true && isKeywordPlace [] (.glyph ' ' :: more)) = true
  rw [place]
  rfl

theorem at?_copy (rest : Text) :
    Definition.at? [] (head.copy ++ rest) =
      some ⟨0, (head.header rest).shift 0, head.copy.length +
        Definition.bodyLength (Header.isEndless rest) head.copy.reverse rest⟩ := by
  rw [Definition.at?_eq, head.opens_copy, if_pos rfl, head.read?_copy]
  simp only [Option.map_some, header, List.take_left, List.drop_left, List.length_nil, Nat.zero_add, List.append_nil]

/-- A head with an `end` on the next line is one definition. -/
theorem all_copy :
    Definition.all (head.copy ++ "\nend\n") =
      [⟨0, (head.header "\nend\n").shift 0, (head.copy ++ "\nend").length⟩] := by
  have later : Inert "\nend\n" := by
    have word : Inert "end" := .of_name (by decide) (by decide)
    have line : Inert "\n" := .of_absent (by decide)
    have first := word.append line (Inert.stops_cons (by decide) [])
    exact first.after (by decide : .glyph 'd' ∉ Text.ofString "\n")
  have stops : ∀ next ∈ (Text.ofString "\nend\n").head?, next.isWord = false := Inert.stops_cons (by decide) _
  have nothing : Definition.within (head.title.reverse ++ (("def" : Text).reverse ++ [])) "\nend\n" = [] :=
    later _ [] (by simp)
  have body : Definition.bodyLength (Header.isEndless "\nend\n") head.copy.reverse "\nend\n" = 4 :=
    Body.nil.extent_eq head.copy.reverse []
  have split : head.copy ++ "\nend\n" = ("def" : Text) ++ (head.title ++ "\nend\n") := by simp [copy, written, title]
  have found := head.at?_copy "\nend\n"
  rw [body] at found
  rw [split] at found
  rw [Definition.all, split, DefFree.within_def, head.inert_title _ _ stops, nothing, found, List.length_append]
  rfl

end MethodHead

end AccessorLint.Source

namespace AccessorLint

open Source (Declaration Definition IsCode MethodHead Receiver Shows blank)

/-- The scan of a method that is written from its parts finds this method and no other, with its name, its receiver, the
number of its parameters and its text. -/
theorem scan_of_rendered_head (head : MethodHead) (path : Text) :
    ∃ declaration, Declaration.scan (head.render ++ "\nend\n") path = [declaration] ∧
      declaration.name = head.name.render ∧ declaration.receiver = head.receiver.map Receiver.render ∧
      declaration.argumentCount = head.parameters.length ∧ declaration.sourceText = head.render ++ "\nend" := by
  have word : IsCode "end" := .word (by decide)
  have line : IsCode "\nend\n" := IsCode.line.append (word.append IsCode.line)
  have shown : blank (head.render ++ "\nend\n") = head.copy ++ "\nend\n" :=
    (head.shows.append line).blank_eq
  have size : head.copy.length = head.render.length := by
    have aligned := congrArg List.length shown
    rw [Source.blank_length, List.length_append, List.length_append] at aligned
    omega
  have source : (head.render ++ "\nend\n").take (head.copy ++ "\nend").length = head.render ++ "\nend" := by
    have split : head.render ++ "\nend\n" = (head.render ++ "\nend") ++ "\n" := by
      rw [List.append_assoc]
      rfl
    rw [split, List.length_append, size, ← List.length_append, List.take_left]
  refine ⟨_, by rw [Declaration.scan, shown, head.all_copy]; rfl, rfl, rfl, head.countArguments_list, ?_⟩
  exact source

example :
    (MethodHead.mk (some (.path ⟨"A", by decide, by decide⟩ [⟨"B", by decide, by decide⟩]))
        ⟨"x", by decide, by decide, some .question⟩
        [⟨"a", by decide, by decide, none⟩,
          ⟨"b", by decide, by decide,
            some (.hash [(⟨"def", by decide⟩,
              .array [.string ")\"#", .number ⟨true, "7", by decide, by decide⟩])])⟩]).render =
      Text.ofString "def A::B.x?(a, b = \x7bdef: [\")\\\"\\#\", -7]\x7d)" := by decide

end AccessorLint
