import Mathlib
import AccessorLint.Proofs.Phrases
set_option autoImplicit false

/-!
Structured code: what the scan finds in code that is written from a tree.

The trees have words, modifiers, blocks, loops, calls with a block, assigned conditionals and methods, nested to any
depth.  The search for the end of a block gets over the text of every tree in the state in which it came to it, so the
`end` that it finds for a method is the one that was written for it.
-/

namespace AccessorLint.Source

open AccessorLint.Symbol (newline)
open AccessorLint.Text (WholeLines firstLine)

/-! ### Trees -/

/-- The words that open, close or divide statements. -/
def reservedWords : List Text :=
  blockOpeners ++ conditionalOpeners ++ statementLeaders ++ (["def", "do", "end"] : List Text)

/-- A word that stands for a value, a call or a name. -/
structure Word where
  text : Text
  isName : AsciiName text
  free : text ∉ reservedWords

def modifiers : List Text := ["if", "unless", "while", "until"]

/-- The words that head a block which is no loop. -/
def blockHeads : List Text := ["class", "module", "begin", "case", "if", "unless"]

structure Signature where
  name : Word
  parameters : List Word

/-- A statement on one line. -/
inductive Simple where
  | plain (word : Word)
  | modified (word : Word) (modifier : { keyword // keyword ∈ modifiers }) (condition : Word)
  | method (signature : Signature) (value : Word)

/-- The first line of a statement that an `end` closes. -/
inductive Head where
  | block (opener : { keyword // keyword ∈ blockHeads }) (word : Word)
  | loop (opener : { keyword // keyword ∈ loopHeads }) (word : Word)
  | loopDo (opener : { keyword // keyword ∈ loopHeads }) (word : Word)
  | call (word : Word)
  | assigned (target condition : Word)
  | method (signature : Signature)

/-- Statements, one after the other. -/
inductive Body where
  | nil
  | simple (statement : Simple) (rest : Body)
  | compound (head : Head) (inner rest : Body)

/-! ### Their text -/

/-- The parameters, as they stand between the parentheses. -/
def parameterList (parameters : List Word) : Text :=
  Text.joined ", " (parameters.map Word.text)

/-- What follows the `def` and a space. -/
def Signature.title (signature : Signature) : Text :=
  signature.name.text ++ .glyph '(' :: (parameterList signature.parameters ++ [.glyph ')'])

def Signature.render (signature : Signature) : Text :=
  ("def" : Text) ++ .glyph ' ' :: signature.title

def Simple.render : Simple → Text
  | .plain word => word.text
  | .modified word modifier condition => word.text ++ .glyph ' ' :: (modifier.val ++ .glyph ' ' :: condition.text)
  | .method signature value => signature.render ++ .glyph ' ' :: (("=" : Text) ++ .glyph ' ' :: value.text)

def Head.render : Head → Text
  | .block opener word => opener.val ++ .glyph ' ' :: word.text
  | .loop opener word => opener.val ++ .glyph ' ' :: word.text
  | .loopDo opener word => opener.val ++ .glyph ' ' :: (word.text ++ .glyph ' ' :: ("do" : Text))
  | .call word => word.text ++ .glyph ' ' :: ("do" : Text)
  | .assigned target condition =>
      target.text ++ .glyph ' ' :: (("=" : Text) ++ .glyph ' ' :: (("if" : Text) ++ .glyph ' ' :: condition.text))
  | .method signature => signature.render

def Body.render : Body → Text
  | .nil => []
  | .simple statement rest => statement.render ++ newline :: rest.render
  | .compound head inner rest => head.render ++ newline :: (inner.render ++ ("end" ++ newline :: rest.render))

def Body.lineCount : Body → Nat
  | .nil => 0
  | .simple _ rest => rest.lineCount + 1
  | .compound _ inner rest => inner.lineCount + rest.lineCount + 2

/-! ### Their methods -/

def Simple.signature? : Simple → Option Signature
  | .method signature _ => some signature
  | _ => none

def Head.signature? : Head → Option Signature
  | .method signature => some signature
  | _ => none

/-- The declaration of a method that starts at an offset, on a line, and whose text ends on a line. -/
def Signature.declaration (signature : Signature) (path : Text) (offset line : Nat) (text : Text) (last : Nat) :
    Declaration where
  name := signature.name.text
  argumentCount := signature.parameters.length
  sourceText := text
  nameRange := ⟨offset + 4, offset + 4 + signature.name.text.length, line, 5⟩
  filePath := path
  relatedLines := (line, last)
  receiver := none

/-- The declarations of the methods in statements that start at an offset and on a line, in the order of the text. -/
def Body.declarations (path : Text) : Nat → Nat → Body → List Declaration
  | _, _, .nil => []
  | offset, line, .simple statement rest =>
      (statement.signature?.map fun signature =>
          signature.declaration path offset line statement.render line).toList ++
        rest.declarations path (offset + statement.render.length + 1) (line + 1)
  | offset, line, .compound head inner rest =>
      let text := head.render ++ newline :: (inner.render ++ "end")
      let last := line + inner.lineCount + 1
      (head.signature?.map fun signature => signature.declaration path offset line text last).toList ++
        (inner.declarations path (offset + head.render.length + 1) (line + 1) ++
          rest.declarations path (offset + text.length + 1) (last + 1))

/-! ### Words -/

/-- A word that is not reserved is no keyword, whatever it stands for. -/
theorem Block.readKeyword_unreserved (block : Block) {word : Text} (free : word ∉ reservedWords) (text : Text) :
    block.readKeyword word text = .goesOn { block with atStatement := false } word.length := by
  simp only [reservedWords, List.mem_append, List.mem_cons, List.not_mem_nil, or_false, not_or] at free
  obtain ⟨⟨⟨noBlock, noConditional⟩, noLeader⟩, noDef, noDo, noEnd⟩ := free
  have outside : statementLeaders.contains word = false := by
    rw [Bool.eq_false_iff]
    exact fun inside => noLeader (List.contains_iff_mem.mp inside)
  rw [Block.readKeyword, if_neg noEnd, if_neg noDef, if_neg fun inside => noBlock (List.contains_iff_mem.mp inside),
    if_neg fun inside => noConditional (List.contains_iff_mem.mp inside), if_neg noDo, outside]

theorem Block.read_unreserved (block : Block) (behind : Text) {first : Symbol} {others rest : Text}
    (size : tokenLength (first :: others ++ rest) = (first :: others).length) (start : first.isNameStart = true)
    (free : first :: others ∉ reservedWords) :
    block.read behind (first :: others ++ rest) =
      .goesOn { block with atStatement := false } (first :: others).length := by
  rw [block.read_word behind size start, block.readKeyword_unreserved free, ite_self]

theorem unreserved_of_mark {word : Text} {mark : Symbol} (member : mark ∈ word) (isMark : mark.isOneOf "_?!" = true) :
    word ∉ reservedWords := by
  have unmarked : ∀ word ∈ reservedWords, ∀ symbol ∈ word, symbol.isOneOf "_?!" = false := by decide
  intro reserved
  rw [unmarked word reserved mark member] at isMark
  cases isMark

namespace Word

variable (word : Word)

theorem ne_def : word.text ≠ "def" := by
  intro same
  exact word.free (same ▸ by decide)

theorem defFree : DefFree word.text :=
  .of_name word.isName word.ne_def

theorem isCode : IsCode word.text :=
  .word word.isName

theorem readKeyword_eq (block : Block) (text : Text) :
    block.readKeyword word.text text = .goesOn { block with atStatement := false } word.text.length :=
  block.readKeyword_unreserved word.free text

theorem leads (block : Block) : Leads block { block with atStatement := false } word.text :=
  .of_name word.isName (word.readKeyword_eq block)

end Word

/-! ### Keywords -/

section Keywords

variable {keyword : Text}

theorem name_of_blockHead : ∀ keyword ∈ blockHeads, AsciiName keyword := by decide

theorem name_of_loopHead : ∀ keyword ∈ loopHeads, AsciiName keyword := by decide

theorem name_of_modifier : ∀ keyword ∈ modifiers, AsciiName keyword := by decide

theorem defFree_of_mem {words : List Text} (member : keyword ∈ words) (name : AsciiName keyword)
    (absent : Text.ofString "def" ∉ words) : DefFree keyword :=
  .of_name name fun same => absent (same ▸ member)

variable (inner : Nat)

theorem leads_blockHead (member : keyword ∈ blockHeads) : Leads ⟨inner, true, false⟩ ⟨inner + 1, true, false⟩ keyword := by
  apply Leads.of_name (name_of_blockHead keyword member)
  intro text
  simp only [blockHeads, List.mem_cons, List.not_mem_nil, or_false] at member
  rcases member with rfl | rfl | rfl | rfl | rfl | rfl <;> rfl

theorem leads_loopHead (member : keyword ∈ loopHeads) : Leads ⟨inner, true, false⟩ ⟨inner + 1, true, true⟩ keyword := by
  apply Leads.of_name (name_of_loopHead keyword member)
  intro text
  simp only [loopHeads, List.mem_cons, List.not_mem_nil, or_false] at member
  rcases member with rfl | rfl | rfl <;> rfl

theorem leads_modifier (member : keyword ∈ modifiers) : Leads ⟨inner, false, false⟩ ⟨inner, true, false⟩ keyword := by
  apply Leads.of_name (name_of_modifier keyword member)
  intro text
  simp only [modifiers, List.mem_cons, List.not_mem_nil, or_false] at member
  rcases member with rfl | rfl | rfl | rfl <;> rfl

theorem leads_do : Leads ⟨inner, false, false⟩ ⟨inner + 1, true, false⟩ "do" :=
  .of_name (by decide) fun _ => rfl

/-- The `do` of a loop opens no block of its own. -/
theorem leads_loop_do : Leads ⟨inner, false, true⟩ ⟨inner, true, false⟩ "do" :=
  .of_name (by decide) fun _ => rfl

theorem leads_end : Leads ⟨inner + 1, true, false⟩ ⟨inner, false, false⟩ "end" :=
  .of_name (by decide) fun _ => rfl

theorem closes_end {behind rest : Text} (before : Divided behind) (after : Divided rest) :
    Search.Closes ⟨⟨0, true, false⟩, behind, ("end" : Text) ++ rest⟩ where
  nonempty := List.cons_ne_nil _ _
  visible := by
    intro first member
    cases member
    decide
  reading := ⟨3, AsciiName.read_eq (by decide) before after _⟩

end Keywords

/-! ### Parameters -/

theorem parameterList_singleton (word : Word) : parameterList [word] = word.text := by
  simp [parameterList, Text.joined]

theorem parameterList_cons_cons (word next : Word) (others : List Word) :
    parameterList (word :: next :: others) =
      word.text ++ .glyph ',' :: ([] ++ .glyph ' ' :: parameterList (next :: others)) := by
  simp [parameterList, Text.joined, List.intercalate_cons_cons, Text.ofString]

theorem mem_parameterList {parameters : List Word} {symbol : Symbol} (member : symbol ∈ parameterList parameters) :
    symbol.isWord = true ∨ symbol = .glyph ',' ∨ symbol = .glyph ' ' := by
  induction parameters with
  | nil => cases member
  | cons word others ih =>
      cases others with
      | nil =>
          rw [parameterList_singleton] at member
          exact Or.inl (word.isName.identifier.words symbol member)
      | cons next later =>
          rw [parameterList_cons_cons, List.mem_append, List.mem_cons, List.nil_append, List.mem_cons] at member
          rcases member with inWord | comma | space | inList
          · exact Or.inl (word.isName.identifier.words symbol inWord)
          · exact Or.inr (Or.inl comma)
          · exact Or.inr (Or.inr space)
          · exact ih inList

theorem not_mem_parameterList (parameters : List Word) {symbol : Symbol}
    (outside : symbol.isWord = false ∧ symbol ≠ .glyph ',' ∧ symbol ≠ .glyph ' ') :
    symbol ∉ parameterList parameters := by
  intro member
  rcases mem_parameterList member with word | comma | space
  · rw [outside.1] at word
    cases word
  · exact outside.2.1 comma
  · exact outside.2.2 space

theorem isCode_parameterList (parameters : List Word) : IsCode (parameterList parameters) := by
  apply IsCode.of_plain
  intro symbol member
  rcases mem_parameterList member with word | rfl | rfl
  · exact isPlain_of_isWord word
  · decide
  · decide

theorem defFree_parameterList (parameters : List Word) : DefFree (parameterList parameters) := by
  induction parameters with
  | nil => exact .nil
  | cons word others ih =>
      cases others with
      | nil =>
          rw [parameterList_singleton]
          exact word.defFree
      | cons next later =>
          rw [parameterList_cons_cons]
          exact word.defFree.join (by decide) (DefFree.nil.join (by decide) ih)

/-- Whether a text counts as one argument. -/
def IsArgument (text : Text) : Prop :=
  ∀ ended, text.foldl ArgumentCount.read ⟨0, ended, false⟩ = ⟨0, ended, true⟩

theorem IsArgument.of_name {word : Text} (name : AsciiName word) : IsArgument word := fun ended =>
  foldl_read_content ⟨0, ended, false⟩ name.identifier.ne_nil fun symbol member =>
    isContent_of_isWord (name.identifier.words symbol member)

theorem countArguments_joined {arguments : List Text} (each : ∀ argument ∈ arguments, IsArgument argument) :
    countArguments (Text.joined ", " arguments) = arguments.length := by
  have counted : ∀ ended, ((Text.joined ", " arguments).foldl ArgumentCount.read ⟨0, ended, false⟩).close.ended =
      ended + arguments.length := by
    induction arguments with
    | nil => exact fun _ => rfl
    | cons first others ih =>
        intro ended
        have passed := each first List.mem_cons_self ended
        cases others with
        | nil =>
            rw [Text.joined_singleton, passed]
            rfl
        | cons next later =>
            have divided : (", " : Text).foldl ArgumentCount.read ⟨0, ended, true⟩ = ⟨0, ended + 1, false⟩ := rfl
            rw [Text.joined_cons_cons, List.foldl_append, passed, List.foldl_append, divided,
              ih fun argument member => each argument (List.mem_cons_of_mem _ member), @List.length_cons _ first]
            omega
  rw [countArguments, counted, Nat.zero_add]

theorem countArguments_parameterList (parameters : List Word) :
    countArguments (parameterList parameters) = parameters.length := by
  have each : ∀ argument ∈ parameters.map Word.text, IsArgument argument := by
    intro argument member
    obtain ⟨word, -, rfl⟩ := List.mem_map.mp member
    exact .of_name word.isName
  rw [parameterList, countArguments_joined each, List.length_map]

/-! ### Signatures -/

namespace Signature

variable (signature : Signature)

theorem isCode : IsCode signature.render := by
  have opening : IsCode [Symbol.glyph '('] := .of_plain (by decide)
  have closing : IsCode [Symbol.glyph ')'] := .of_plain (by decide)
  have keyword : IsCode "def " := .of_plain (by decide)
  have whole : signature.render = ("def " : Text) ++ (signature.name.text ++
      ([.glyph '('] ++ (parameterList signature.parameters ++ [.glyph ')']))) := rfl
  rw [whole]
  exact keyword.append (signature.name.isCode.append (opening.append ((isCode_parameterList _).append closing)))

theorem defFree_title : DefFree signature.title := by
  have list := (defFree_parameterList signature.parameters).join (by decide : divides (.glyph ')') = true) .nil
  exact signature.name.defFree.join (by decide) list

theorem newline_not_mem : newline ∉ signature.render := by
  have inList : newline ∉ parameterList signature.parameters := not_mem_parameterList _ (by decide)
  have inKeyword : newline ∉ Text.ofString "def" := by decide
  have others : newline ≠ .glyph ' ' ∧ newline ≠ .glyph '(' ∧ newline ≠ .glyph ')' := by decide
  simp [render, title, inKeyword, inList, signature.name.isName.newline_not_mem, others]

/-- The head that is read where a signature and a rest stand. -/
def header (rest : Text) : Header where
  name := signature.name.text
  nameBegin := 4
  nameEnd := 4 + signature.name.text.length
  receiver := none
  parameters := parameterList signature.parameters
  headerEnd := signature.render.length
  endless := Header.isEndless rest

end Signature

theorem Header.parametersAt_list {list : Text} (noOpening : .glyph '(' ∉ list) (noClosing : .glyph ')' ∉ list)
    (rest : Text) : parametersAt (.glyph '(' :: (list ++ .glyph ')' :: rest)) 0 = (list, list.length + 2) := by
  have span : closingSpan (.glyph '(') (.glyph ')') 0 (.glyph '(' :: (list ++ .glyph ')' :: rest)) = list.length + 1 := by
    rw [closingSpan, if_pos rfl, closingSpan_skip _ noOpening noClosing, closingSpan, if_neg (by decide), if_pos rfl,
      if_pos (by decide)]
    omega
  have gaps : (Symbol.glyph '(' :: (list ++ .glyph ')' :: rest)).takeWhile isGap = [] := rfl
  have whole : Symbol.glyph '(' :: (list ++ .glyph ')' :: rest) = (.glyph '(' :: (list ++ [.glyph ')'])) ++ rest := by
    simp
  have size : list.length + 1 + 1 = (Symbol.glyph '(' :: (list ++ [.glyph ')'])).length := by simp
  simp only [parametersAt, List.drop_zero, Nat.zero_add, gaps, List.length_nil, List.head?_cons, if_true, span]
  rw [List.take_succ_cons, List.drop_one, List.tail_cons, List.take_left, size, whole, List.take_left, ← size]

namespace Signature

variable (signature : Signature) {behind : Text}

theorem read?_render (rest : Text) : Header.read? (signature.render ++ rest) = some (signature.header rest) := by
  let slot : Slot := {
    above := [], indent := [], receiver := none, lead := " ", gaps := []
    below := parameterList signature.parameters ++ .glyph ')' :: rest
    whole := .nil
    indentGaps := by simp
    isLead := .plain (by decide) (by decide)
    gapsGaps := by simp }
  have read := slot.read?_head (.word signature.name.isName.identifier signature.name.ne_def)
  have whole : signature.render ++ rest = ("def" : Text) ++ (slot.lead ++ (signature.name.text ++ slot.back)) := by
    simp [render, title, slot, Slot.back, Text.ofString]
  have list := Header.parametersAt_list (not_mem_parameterList signature.parameters (by decide))
    (not_mem_parameterList signature.parameters (by decide)) rest
  have size : signature.render.length =
      4 + signature.name.text.length + ((parameterList signature.parameters).length + 2) := by
    simp [render, title, Text.ofString]
    omega
  have ended : (Symbol.glyph '(' :: (parameterList signature.parameters ++ .glyph ')' :: rest)).drop
      ((parameterList signature.parameters).length + 2) = rest := by
    rw [List.drop_succ_cons, ← List.drop_drop, List.drop_left, List.drop_one, List.tail_cons]
  rw [whole, read]
  change some (Header.written none " " signature.name.text
    (.glyph '(' :: (parameterList signature.parameters ++ .glyph ')' :: rest))) = _
  rw [Header.written, list, header, size]
  dsimp only
  rw [ended]
  rfl

theorem opens_render (before : Divided behind) (rest : Text) :
    Definition.opens behind (signature.render ++ rest) = true := by
  have place : isKeywordPlace behind (.glyph ' ' :: (signature.title ++ rest)) = true :=
    before.isKeywordPlace (.cons (by decide) _)
  have noWord := Divided.any_head before.not_isWord
  unfold Definition.opens
  change (true && !behind.head?.any Symbol.isWord && true &&
    isKeywordPlace behind (.glyph ' ' :: (signature.title ++ rest))) = true
  rw [place, noWord]
  rfl

theorem at?_render (before : Divided behind) (rest : Text) :
    Definition.at? behind (signature.render ++ rest) =
      some ⟨behind.length, (signature.header rest).shift behind.length,
        behind.length + signature.render.length +
          Definition.bodyLength (Header.isEndless rest) (signature.render.reverse ++ behind) rest⟩ := by
  rw [Definition.at?_eq, signature.opens_render before, if_pos rfl, signature.read?_render]
  simp only [Option.map_some, header, List.take_left, List.drop_left]

theorem reaches (block : Block) (before : Divided behind) (rest : Text) :
    Search.Reaches ⟨block, behind, signature.render ++ rest⟩
      ⟨⟨if Header.isEndless rest then block.inner else block.inner + 1, Header.isEndless rest, block.awaitsDo⟩,
        signature.render.reverse ++ behind, rest⟩ := by
  have reading := block.read_def (signature.opens_render before rest) (signature.read?_render rest)
  have visible : ∀ first ∈ (signature.render ++ rest).head?, isFiller first = false := by
    intro first member
    cases member
    decide
  have step := Search.Step.token (List.cons_ne_nil _ _) visible reading
  change Search.Step ⟨block, behind, signature.render ++ rest⟩ ⟨_, ((signature.render ++ rest).take
    signature.render.length).reverse ++ behind, (signature.render ++ rest).drop signature.render.length⟩ at step
  rw [List.take_left, List.drop_left] at step
  exact .head step (.refl _)

/-- How a method is described whose text starts with its signature on a line of its own. -/
theorem declaration_eq {text more later front : Text} {last : Symbol} (rest path : Text)
    (whole : WholeLines behind.reverse) (ends : more = front ++ [last]) (visible : last ≠ newline)
    (textEq : text = behind.reverse ++ ((signature.render ++ more) ++ later)) :
    Declaration.ofDefinition text path (lineStarts text)
        ⟨behind.length, (signature.header rest).shift behind.length, behind.length + (signature.render ++ more).length⟩ =
      signature.declaration path behind.length (behind.count newline + 1) (signature.render ++ more)
        (behind.count newline + 1 + more.count newline) := by
  have line : behind.reverse.count newline = behind.count newline := List.count_reverse
  have start : behind.length = behind.reverse.length := List.length_reverse.symm
  have size : (behind.reverse ++ ("def " : Text)).length = 4 + behind.length := by
    rw [List.length_append, List.length_reverse, Nat.add_comm]
    rfl
  have place := position_eq whole (by decide : newline ∉ Text.ofString "def ")
    (signature.title ++ more ++ later)
  have named : behind.reverse ++ (("def " : Text) ++ (signature.title ++ more ++ later)) = text := by
    rw [textEq]
    simp [render, title, Text.ofString]
  rw [named, size, line] at place
  have source : (text.take (behind.length + (signature.render ++ more).length)).drop behind.length =
      signature.render ++ more := by
    rw [textEq, start, List.take_length_add_append, List.drop_left, List.take_left]
  have firstLine : (position (lineStarts text) behind.length).1 = behind.count newline + 1 := by
    rw [position_line, textEq, start, List.take_left, line]
  have lastLine : (position (lineStarts text)
      (max behind.length (behind.length + (signature.render ++ more).length - 1))).1 =
      behind.count newline + 1 + more.count newline := by
    have before : max behind.length (behind.length + (signature.render ++ more).length - 1) =
        behind.reverse.length + (signature.render ++ front).length := by
      rw [ends, ← List.append_assoc, List.length_append, List.length_reverse]
      exact Nat.max_eq_right (Nat.le_add_right _ _)
    have counted : front.count newline = more.count newline := by
      rw [ends, List.count_append, List.count_singleton, if_neg (by simpa using visible), Nat.add_zero]
    have regrouped : signature.render ++ more ++ later = (signature.render ++ front) ++ (last :: later) := by
      simp [ends]
    rw [position_line, textEq, before, regrouped, List.take_length_add_append, List.take_left, List.count_append,
      List.count_append, line, counted, List.count_eq_zero_of_not_mem signature.newline_not_mem]
    omega
  unfold Declaration.ofDefinition
  dsimp only [Header.shift, header]
  rw [source, firstLine, lastLine, place, countArguments_parameterList, declaration, Nat.add_comm 4 behind.length,
    Nat.add_right_comm 4, Nat.add_comm 4 behind.length]
  rfl

theorem divided_reverse (far : Text) : Divided (signature.render.reverse ++ far) := by
  have ends : signature.render.reverse ++ far =
      .glyph ')' :: ((("def" : Text) ++ .glyph ' ' :: (signature.name.text ++ .glyph '(' ::
        parameterList signature.parameters)).reverse ++ far) := by simp [render, title]
  rw [ends]
  exact .cons (by decide) _

theorem within_render {rest : Text} (after : Divided rest) :
    Definition.within behind (signature.render ++ rest) =
      (Definition.at? behind (signature.render ++ rest)).toList ++
        Definition.within (signature.render.reverse ++ behind) rest := by
  have regrouped : signature.render ++ rest = ("def" : Text) ++ .glyph ' ' :: (signature.title ++ rest) := by
    simp [render]
  have whole : signature.title.reverse ++ (.glyph ' ' :: (("def" : Text).reverse ++ behind)) =
      signature.render.reverse ++ behind := by
    simp [render]
  rw [regrouped, DefFree.within_def, DefFree.within_other (by decide),
    signature.defFree_title _ rest (.cons (by decide) _) after, whole]

/-- The declarations from a method on whose text starts with its signature: that of the method, and those after the
signature. -/
theorem declarations_render {text more later front : Text} {last : Symbol} (path : Text)
    (whole : WholeLines behind.reverse) (ends : more = front ++ [last]) (visible : last ≠ newline)
    (divided : Divided (more ++ later))
    (body : Definition.bodyLength (Header.isEndless (more ++ later)) (signature.render.reverse ++ behind) (more ++ later) =
      more.length)
    (textEq : text = behind.reverse ++ (signature.render ++ (more ++ later))) :
    (Definition.within behind (signature.render ++ (more ++ later))).map
        (Declaration.ofDefinition text path (lineStarts text)) =
      signature.declaration path behind.length (behind.count newline + 1) (signature.render ++ more)
          (behind.count newline + 1 + more.count newline) ::
        (Definition.within (signature.render.reverse ++ behind) (more ++ later)).map
          (Declaration.ofDefinition text path (lineStarts text)) := by
  have before := Divided.of_whole whole
  have size : behind.length + signature.render.length + more.length =
      behind.length + (signature.render ++ more).length := by
    rw [List.length_append, Nat.add_assoc]
  have regrouped : text = behind.reverse ++ ((signature.render ++ more) ++ later) := by
    rw [textEq, List.append_assoc signature.render]
  have described := signature.declaration_eq (more ++ later) path whole ends visible regrouped
  rw [signature.within_render divided, signature.at?_render before, body, size, Option.toList_some,
    List.singleton_append, List.map_cons, described]

end Signature

/-! ### Statements on one line -/

namespace Simple

theorem isCode (statement : Simple) : IsCode statement.render := by
  have space : IsCode [Symbol.glyph ' '] := .of_plain (by decide)
  cases statement with
  | plain word => exact word.isCode
  | modified word modifier condition =>
      have keyword : IsCode modifier.val := .word (name_of_modifier _ modifier.property)
      exact word.isCode.append (space.append (keyword.append (space.append condition.isCode)))
  | method signature value =>
      exact signature.isCode.append (IsCode.equals.append (space.append value.isCode))

theorem newline_not_mem (statement : Simple) : newline ∉ statement.render := by
  have others : newline ≠ .glyph ' ' := by decide
  cases statement with
  | plain word => exact word.isName.newline_not_mem
  | modified word modifier condition =>
      have inKeyword := (name_of_modifier _ modifier.property).newline_not_mem
      simp [render, word.isName.newline_not_mem, inKeyword, condition.isName.newline_not_mem, others]
  | method signature value =>
      have inEquals : newline ∉ Text.ofString "=" := by decide
      simp [render, signature.newline_not_mem, inEquals, value.isName.newline_not_mem, others]

/-- The search for the end of a block gets over a line in the state in which it came to it. -/
theorem reaches (statement : Simple) (inner : Nat) {behind : Text} (before : Divided behind) (below : Text) :
    Search.Reaches ⟨⟨inner, true, false⟩, behind, statement.render ++ newline :: below⟩
      ⟨⟨inner, true, false⟩, pastLine statement.render behind, below⟩ := by
  cases statement with
  | plain word => exact (word.leads ⟨inner, true, false⟩).line before below
  | modified word modifier condition =>
      have modified := (leads_modifier inner modifier.property).join (condition.leads _)
      exact ((word.leads ⟨inner, true, false⟩).join modified).line before below
  | method signature value =>
      -- an endless method opens no block, and a statement starts after its signature
      have assigned : Leads ⟨inner, true, false⟩ ⟨inner, false, false⟩
          ([] ++ .glyph ' ' :: (("=" : Text) ++ .glyph ' ' :: value.text)) :=
        (Leads.nil _).join ((Leads.equals _).join (value.leads _))
      have head := signature.reaches ⟨inner, true, false⟩ before
        (.glyph ' ' :: (("=" : Text) ++ .glyph ' ' :: value.text) ++ newline :: below)
      have tail := assigned.line (signature.divided_reverse behind) below
      have regrouped : pastLine (method signature value).render behind =
          pastLine (.glyph ' ' :: (("=" : Text) ++ .glyph ' ' :: value.text)) (signature.render.reverse ++ behind) := by
        simp [pastLine, render]
      rw [regrouped, render, List.append_assoc]
      exact head.trans tail

theorem declarations_line (statement : Simple) (path : Text) {text behind below : Text}
    (whole : WholeLines behind.reverse) (textEq : text = behind.reverse ++ (statement.render ++ newline :: below)) :
    (Definition.within behind (statement.render ++ newline :: below)).map
        (Declaration.ofDefinition text path (lineStarts text)) =
      (statement.signature?.map fun signature =>
          signature.declaration path behind.length (behind.count newline + 1) statement.render
            (behind.count newline + 1)).toList ++
        (Definition.within (pastLine statement.render behind) below).map
          (Declaration.ofDefinition text path (lineStarts text)) := by
  have before := Divided.of_whole whole
  cases statement with
  | plain word =>
      have free : DefFree (plain word).render := word.defFree
      rw [free.line before]
      rfl
  | modified word modifier condition =>
      have keyword : DefFree modifier.val :=
        defFree_of_mem modifier.property (name_of_modifier _ modifier.property) (by decide)
      have free : DefFree (modified word modifier condition).render :=
        word.defFree.join (by decide) (keyword.join (by decide) condition.defFree)
      rw [free.line before]
      rfl
  | method signature value =>
      have free : DefFree ([] ++ .glyph ' ' :: (("=" : Text) ++ .glyph ' ' :: value.text)) :=
        DefFree.nil.join (by decide) ((DefFree.symbol (by decide)).join (by decide) value.defFree)
      obtain ⟨front, last, valueEq⟩ := (List.eq_nil_or_concat' value.text).resolve_left value.isName.identifier.ne_nil
      have visible : last ≠ newline := by
        rintro rfl
        exact value.isName.newline_not_mem (by simp [valueEq])
      have ends : .glyph ' ' :: (("=" : Text) ++ .glyph ' ' :: value.text) =
          (.glyph ' ' :: (("=" : Text) ++ .glyph ' ' :: front)) ++ [last] := by simp [valueEq]
      have absent : newline ∉ .glyph ' ' :: (("=" : Text) ++ .glyph ' ' :: value.text) := by
        intro member
        exact (method signature value).newline_not_mem (List.mem_append_right _ member)
      have body : Definition.bodyLength true (signature.render.reverse ++ behind)
          (.glyph ' ' :: (("=" : Text) ++ .glyph ' ' :: value.text) ++ newline :: below) =
          (Symbol.glyph ' ' :: (("=" : Text) ++ .glyph ' ' :: value.text)).length :=
        congrArg List.length (Text.firstLine_append_newline absent below)
      rw [render, List.append_assoc] at textEq ⊢
      rw [signature.declarations_render path whole ends visible (.cons (by decide) _) body textEq,
        List.count_eq_zero_of_not_mem absent, Nat.add_zero, pastLine, List.reverse_append, List.append_assoc]
      exact congrArg (_ :: List.map _ ·) (free.line (signature.divided_reverse behind) below)

end Simple

/-! ### First lines of blocks -/

namespace Head

theorem isCode (head : Head) : IsCode head.render := by
  have space : IsCode [Symbol.glyph ' '] := .of_plain (by decide)
  have doWord : IsCode "do" := .word (by decide)
  have ifWord : IsCode "if" := .word (by decide)
  cases head with
  | block opener word =>
      have keyword : IsCode opener.val := .word (name_of_blockHead _ opener.property)
      exact keyword.append (space.append word.isCode)
  | loop opener word =>
      have keyword : IsCode opener.val := .word (name_of_loopHead _ opener.property)
      exact keyword.append (space.append word.isCode)
  | loopDo opener word =>
      have keyword : IsCode opener.val := .word (name_of_loopHead _ opener.property)
      exact keyword.append (space.append (word.isCode.append (space.append doWord)))
  | call word => exact word.isCode.append (space.append doWord)
  | assigned target condition =>
      exact target.isCode.append (IsCode.equals.append (space.append (ifWord.append (space.append condition.isCode))))
  | method signature => exact signature.isCode

theorem newline_not_mem (head : Head) : newline ∉ head.render := by
  have others : newline ≠ .glyph ' ' := by decide
  have inWords : newline ∉ Text.ofString "do" ∧ newline ∉ Text.ofString "=" ∧ newline ∉ Text.ofString "if" := by decide
  cases head with
  | block opener word =>
      have inKeyword := (name_of_blockHead _ opener.property).newline_not_mem
      simp [render, word.isName.newline_not_mem, inKeyword, others]
  | loop opener word =>
      have inKeyword := (name_of_loopHead _ opener.property).newline_not_mem
      simp [render, word.isName.newline_not_mem, inKeyword, others]
  | loopDo opener word =>
      have inKeyword := (name_of_loopHead _ opener.property).newline_not_mem
      simp [render, word.isName.newline_not_mem, inKeyword, inWords, others]
  | call word => simp [render, word.isName.newline_not_mem, inWords, others]
  | assigned target condition =>
      simp [render, target.isName.newline_not_mem, condition.isName.newline_not_mem, inWords, others]
  | method signature => exact signature.newline_not_mem

theorem defFree {head : Head} (none : head.signature? = none) : DefFree head.render := by
  have doWord : DefFree "do" := .of_name (by decide) (by decide)
  have ifWord : DefFree "if" := .of_name (by decide) (by decide)
  have equals : DefFree "=" := .symbol (by decide)
  cases head with
  | block opener word =>
      have keyword : DefFree opener.val :=
        defFree_of_mem opener.property (name_of_blockHead _ opener.property) (by decide)
      exact keyword.join (by decide) word.defFree
  | loop opener word =>
      have keyword : DefFree opener.val :=
        defFree_of_mem opener.property (name_of_loopHead _ opener.property) (by decide)
      exact keyword.join (by decide) word.defFree
  | loopDo opener word =>
      have keyword : DefFree opener.val :=
        defFree_of_mem opener.property (name_of_loopHead _ opener.property) (by decide)
      exact keyword.join (by decide) (word.defFree.join (by decide) doWord)
  | call word => exact word.defFree.join (by decide) doWord
  | assigned target condition =>
      exact target.defFree.join (by decide) (equals.join (by decide) (ifWord.join (by decide) condition.defFree))
  | method signature => cases none

/-- The search for the end of a block gets over the first line of another block into that block. -/
theorem reaches (head : Head) (inner : Nat) {behind : Text} (before : Divided behind) (below : Text) :
    Search.Reaches ⟨⟨inner, true, false⟩, behind, head.render ++ newline :: below⟩
      ⟨⟨inner + 1, true, false⟩, pastLine head.render behind, below⟩ := by
  cases head with
  | block opener word => exact ((leads_blockHead inner opener.property).join (word.leads _)).line before below
  | loop opener word => exact ((leads_loopHead inner opener.property).join (word.leads _)).line before below
  | loopDo opener word =>
      have awaited := (word.leads ⟨inner + 1, true, true⟩).join (leads_loop_do (inner + 1))
      exact ((leads_loopHead inner opener.property).join awaited).line before below
  | call word => exact ((word.leads ⟨inner, true, false⟩).join (leads_do inner)).line before below
  | assigned target condition =>
      have conditional := (leads_blockHead inner (by decide : Text.ofString "if" ∈ blockHeads)).join (condition.leads _)
      exact ((target.leads ⟨inner, true, false⟩).join ((Leads.equals _).join conditional)).line before below
  | method signature =>
      exact (signature.reaches ⟨inner, true, false⟩ before (newline :: below)).trans (.line _ _ below)

end Head

/-! ### Bodies -/

namespace Body

theorem isCode (body : Body) : IsCode body.render := by
  induction body with
  | nil => exact .of_plain (by simp [render])
  | simple statement rest ih => exact statement.isCode.append (IsCode.line.append ih)
  | compound head inner rest ihInner ihRest =>
      have endWord : IsCode "end" := .word (by decide)
      exact head.isCode.append (IsCode.line.append (ihInner.append (endWord.append (IsCode.line.append ihRest))))

theorem wholeLines (body : Body) : WholeLines body.render := by
  induction body with
  | nil => exact .nil
  | simple statement rest ih =>
      have regrouped : (simple statement rest).render = (statement.render ++ [newline]) ++ rest.render := by
        simp [render]
      rw [regrouped]
      exact (WholeLines.append_newline _).append ih
  | compound head inner rest ihInner ihRest =>
      have regrouped : (compound head inner rest).render =
          ((head.render ++ newline :: (inner.render ++ ("end" : Text))) ++ [newline]) ++ rest.render := by
        simp [render]
      rw [regrouped]
      exact (WholeLines.append_newline _).append ihRest

theorem count_newline (body : Body) : body.render.count newline = body.lineCount := by
  induction body with
  | nil => rfl
  | simple statement rest ih =>
      rw [render, List.count_append, List.count_eq_zero_of_not_mem statement.newline_not_mem, List.count_cons_self, ih,
        lineCount, Nat.zero_add]
  | compound head inner rest ihInner ihRest =>
      have inEnd : newline ∉ Text.ofString "end" := by decide
      rw [render, List.count_append, List.count_eq_zero_of_not_mem head.newline_not_mem, List.count_cons_self,
        List.count_append, ihInner, List.count_append, List.count_eq_zero_of_not_mem inEnd, List.count_cons_self, ihRest,
        lineCount]
      omega

theorem whole_reverse (body : Body) {behind : Text} (whole : WholeLines behind.reverse) :
    WholeLines (body.render.reverse ++ behind).reverse := by
  rw [List.reverse_append, List.reverse_reverse]
  exact whole.append body.wholeLines

/-- The search for the end of a block gets over a body in the state in which it came to it. -/
theorem reaches (body : Body) (inner : Nat) {behind : Text} (whole : WholeLines behind.reverse) (later : Text) :
    Search.Reaches ⟨⟨inner, true, false⟩, behind, body.render ++ later⟩
      ⟨⟨inner, true, false⟩, body.render.reverse ++ behind, later⟩ := by
  induction body generalizing inner behind later with
  | nil => exact .refl _
  | simple statement rest ih =>
      have first := statement.reaches inner (.of_whole whole) (rest.render ++ later)
      have others := ih inner (pastLine_whole statement.render behind) later
      have passed : (simple statement rest).render.reverse ++ behind =
          rest.render.reverse ++ pastLine statement.render behind := by simp [pastLine, render]
      rw [passed, render, List.append_assoc, List.cons_append]
      exact first.trans others
  | compound head body rest ihBody ihRest =>
      -- one block deeper for the inner body, and back by the `end`
      have opened := head.reaches inner (.of_whole whole)
        (body.render ++ (("end" : Text) ++ newline :: (rest.render ++ later)))
      have entered := pastLine_whole head.render behind
      have crossed := ihBody (inner + 1) entered (("end" : Text) ++ newline :: (rest.render ++ later))
      have closed := (leads_end inner).line (.of_whole (body.whole_reverse entered)) (rest.render ++ later)
      have others := ihRest inner (pastLine_whole "end" (body.render.reverse ++ pastLine head.render behind)) later
      have passed : (compound head body rest).render.reverse ++ behind =
          rest.render.reverse ++ pastLine "end" (body.render.reverse ++ pastLine head.render behind) := by
        simp [pastLine, render]
      have ahead : (compound head body rest).render ++ later =
          head.render ++ newline :: (body.render ++ (("end" : Text) ++ newline :: (rest.render ++ later))) := by
        simp [render]
      rw [passed, ahead]
      exact opened.trans (crossed.trans (closed.trans others))

/-- The search for the end of a method finds the `end` that is written after its body. -/
theorem extent_eq (body : Body) (behind later : Text) :
    Block.opened.extent behind (newline :: (body.render ++ (("end" : Text) ++ newline :: later))) =
      (newline :: (body.render ++ ("end" : Text))).length := by
  have entered := Search.Reaches.line Block.opened behind (body.render ++ (("end" : Text) ++ newline :: later))
  have crossed := body.reaches 0 (pastLine_whole [] behind) (("end" : Text) ++ newline :: later)
  have divided := Divided.of_whole (body.whole_reverse (pastLine_whole [] behind))
  have ends := (entered.trans crossed).finish
  rw [(closes_end divided (.cons (by decide) _)).finish] at ends
  change (body.render.reverse ++ pastLine [] behind).length + 3 = behind.length + Block.opened.extent _ _ at ends
  simp only [pastLine_length, List.length_append, List.length_reverse, List.length_cons, List.length_nil] at ends ⊢
  change _ = _ + 3 + 1
  omega

end Body

/-- The declarations from the first line of a block on: that of a method, and those after the line. -/
theorem Head.declarations_line (head : Head) (inner : Body) (path : Text) {text behind later : Text}
    (whole : WholeLines behind.reverse)
    (textEq : text = behind.reverse ++ (head.render ++ newline :: (inner.render ++ (("end" : Text) ++ newline :: later)))) :
    (Definition.within behind (head.render ++ newline :: (inner.render ++ (("end" : Text) ++ newline :: later)))).map
        (Declaration.ofDefinition text path (lineStarts text)) =
      (head.signature?.map fun signature =>
          signature.declaration path behind.length (behind.count newline + 1)
            (head.render ++ newline :: (inner.render ++ "end")) (behind.count newline + 1 + inner.lineCount + 1)).toList ++
        (Definition.within (pastLine head.render behind)
          (inner.render ++ (("end" : Text) ++ newline :: later))).map
          (Declaration.ofDefinition text path (lineStarts text)) := by
  cases titled : head.signature? with
  | none =>
      rw [(Head.defFree titled).line (.of_whole whole)]
      rfl
  | some signature =>
      have isMethod : head = .method signature := by
        cases head with
        | method other =>
            cases titled
            rfl
        | _ => cases titled
      subst isMethod
      have ends : newline :: (inner.render ++ ("end" : Text)) =
          (newline :: (inner.render ++ ("en" : Text))) ++ [Symbol.glyph 'd'] := by simp [Text.ofString]
      have ahead : newline :: (inner.render ++ (("end" : Text) ++ newline :: later)) =
          newline :: (inner.render ++ ("end" : Text)) ++ newline :: later := by simp
      have body := inner.extent_eq (signature.render.reverse ++ behind) later
      have inEnd : newline ∉ Text.ofString "end" := by decide
      have lines : (newline :: (inner.render ++ ("end" : Text))).count newline = inner.lineCount + 1 := by
        rw [List.count_cons_self, List.count_append, inner.count_newline, List.count_eq_zero_of_not_mem inEnd,
          Nat.add_zero]
      rw [Head.render, ahead] at textEq ⊢
      rw [ahead] at body
      rw [signature.declarations_render path whole ends (by decide) (.cons (by decide) _) body textEq, lines,
        List.cons_append, DefFree.within_other (by decide)]
      simp only [Option.map_some, Option.toList_some, List.singleton_append, List.append_assoc, Nat.add_assoc, pastLine]

/-- The declarations from a body on are those of the methods in it, and those after it. -/
theorem Body.declarations_eq (body : Body) (path : Text) {text behind later : Text} (whole : WholeLines behind.reverse)
    (textEq : text = behind.reverse ++ (body.render ++ later)) :
    (Definition.within behind (body.render ++ later)).map (Declaration.ofDefinition text path (lineStarts text)) =
      body.declarations path behind.length (behind.count newline + 1) ++
        (Definition.within (body.render.reverse ++ behind) later).map
          (Declaration.ofDefinition text path (lineStarts text)) := by
  induction body generalizing behind later with
  | nil => rfl
  | simple statement rest ih =>
      have ahead : (simple statement rest).render ++ later = statement.render ++ newline :: (rest.render ++ later) := by
        simp [render]
      have passed : (simple statement rest).render.reverse ++ behind =
          rest.render.reverse ++ pastLine statement.render behind := by simp [pastLine, render]
      rw [ahead] at textEq ⊢
      have others := ih (pastLine_whole statement.render behind) (by simpa [pastLine] using textEq)
      rw [pastLine_length, pastLine_count _ statement.newline_not_mem] at others
      rw [statement.declarations_line path whole textEq, others, declarations, passed, List.append_assoc]
  | compound head body rest ihBody ihRest =>
      have ahead : (compound head body rest).render ++ later =
          head.render ++ newline :: (body.render ++ (("end" : Text) ++ newline :: (rest.render ++ later))) := by
        simp [render]
      have passed : (compound head body rest).render.reverse ++ behind =
          rest.render.reverse ++ pastLine "end" (body.render.reverse ++ pastLine head.render behind) := by
        simp [pastLine, render]
      have entered := pastLine_whole head.render behind
      have endFree : DefFree "end" := .of_name (by decide) (by decide)
      have offset : (pastLine "end" (body.render.reverse ++ pastLine head.render behind)).length =
          behind.length + (head.render ++ newline :: (body.render ++ ("end" : Text))).length + 1 := by
        simp only [pastLine_length, List.length_append, List.length_reverse, List.length_cons]
        omega
      have line : (pastLine "end" (body.render.reverse ++ pastLine head.render behind)).count newline =
          behind.count newline + 1 + body.lineCount + 1 := by
        rw [pastLine_count _ (by decide), List.count_append, List.count_reverse, body.count_newline,
          pastLine_count _ head.newline_not_mem, Nat.add_comm body.lineCount]
      rw [ahead] at textEq ⊢
      have inner := ihBody entered (by simpa [pastLine] using textEq)
      have others := ihRest (pastLine_whole "end" (body.render.reverse ++ pastLine head.render behind))
        (by simpa [pastLine] using textEq)
      rw [pastLine_length, pastLine_count _ head.newline_not_mem] at inner
      rw [offset, line] at others
      rw [head.declarations_line body path whole textEq, inner, endFree.line (.of_whole (body.whole_reverse entered)),
        others, declarations, passed, List.append_assoc, List.append_assoc]

end AccessorLint.Source

namespace AccessorLint

open Source (Body Declaration)

/-- The scan of code that is written from a tree finds the methods of the tree: each once, in the order of the text, with
its name, the number of its parameters, its text and its lines. -/
theorem scan_of_rendered_body (body : Body) (path : Text) :
    Declaration.scan body.render path = body.declarations path 0 1 := by
  have nothing : Text.WholeLines ([] : Text).reverse := .nil
  have found := body.declarations_eq path nothing (List.append_nil body.render).symm
  rw [List.append_nil body.render] at found
  rw [Declaration.scan, Source.Definition.all, body.isCode.blank_eq, found]
  exact List.append_nil _

example :
    (Body.compound (.method ⟨⟨"total", by decide, by decide⟩, [⟨"tax", by decide, by decide⟩]⟩)
        (.simple (.modified ⟨"tax", by decide, by decide⟩ ⟨"if", by decide⟩ ⟨"net", by decide, by decide⟩) .nil)
        (.simple (.method ⟨⟨"net", by decide, by decide⟩, []⟩ ⟨"x1", by decide, by decide⟩) .nil)).render =
      Text.ofString "def total(tax)\ntax if net\nend\ndef net() = x1\n" := by decide

end AccessorLint
