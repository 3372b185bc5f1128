import AccessorLint.Source.Literal
import AccessorLint.Source.Bracket
set_option autoImplicit false

/-!
The head of a method definition: `def`, an optional receiver, the name of the method and its parameters.

Heads are read from blanked code.  A head is read from the start of a text, and its offsets are counted from there.
-/

namespace AccessorLint.Source

/-- The head of a method definition. -/
structure Header where
  name : Text
  nameBegin : Nat
  nameEnd : Nat
  /-- What stands before the dot in `def receiver.name`. -/
  receiver : Option Text
  /-- The code of the parameters, without the parentheses. -/
  parameters : Text
  headerEnd : Nat
  /-- Whether the body is an expression after `=`, so that no `end` closes the definition. -/
  endless : Bool
deriving DecidableEq, Repr

/-! ### Names -/

/-- The operators that name methods.  Of two that begin alike the longer comes first. -/
def operatorNames : List Text :=
  ["[]=", "[]", "===", "==", "=~", "<=>", "<<", ">>", "<=", ">=", "**",
    "-@", "-", "+@", "+", "!@", "!", "~@", "~", "<", ">", "*", "/", "%", "&", "|", "^"]

/-- The length of the mark that ends a method name: `?`, `!`, or an `=` that is part of no operator. -/
def markLength : Text → Nat
  | [] => 0
  | mark :: after =>
      if mark.isOneOf "?!" then 1
      else if mark = .glyph '=' && !(after.head?.any fun symbol => symbol.isOneOf "=~>") then 1
      else 0

/-- The length of the word at the start of a text that starts like an identifier. -/
def wordLength : Text → Nat
  | [] => 0
  | first :: rest => if first.isNameStart then 1 + (rest.takeWhile Symbol.isWord).length else 0

/-- The length of the method name at the start of a text; zero if there is none. -/
def nameLength (text : Text) : Nat :=
  let word := wordLength text
  if word = 0 then ((operatorNames.find? fun operator => text.startsWith operator).map List.length).getD 0
  else word + markLength (text.drop word)

/-! ### Receivers -/

/-- The length of the constants at the start of a text, each after `::`.  The first argument bounds their number. -/
def constantsLength : Nat → Text → Nat
  | 0, _ => 0
  | fuel + 1, text =>
      if text.startsWith "::" && ((text.drop 2).head?.any (Symbol.satisfies Char.isUpper)) then
        let length := 2 + wordLength (text.drop 2)
        length + constantsLength fuel (text.drop length)
      else 0

/-- The length of the receiver at the start of a text, and the number of symbols up to the name after its dot. -/
def receiver? (text : Text) : Option (Nat × Nat) :=
  let word := wordLength text
  if word = 0 then none
  else
    let stretch := text.takeWhile fun symbol => symbol.isWord || symbol = .glyph ':'
    let path := word + constantsLength stretch.length (text.drop word)
    let before := ((text.drop path).takeWhile isGap).length
    if (text.drop (path + before)).head? = some (.glyph '.') then
      let after := ((text.drop (path + before + 1)).takeWhile isGap).length
      some (path, path + before + 1 + after)
    else none

/-! ### Heads -/

namespace Header

/-- Whether an `=` that starts an expression follows on the line. -/
def isEndless (text : Text) : Bool :=
  match text.dropWhile isGap with
  | [] => false
  | first :: after => first = .glyph '=' && !(after.head?.any fun symbol => symbol.isOneOf "=~>")

/-- The code of the parameters after a name that ends at an offset, and the offset after the head.  Without
parentheses the parameters are the rest of the line, unless that starts with `=`. -/
def parametersAt (text : Text) (offset : Nat) : Text × Nat :=
  let first := offset + ((text.drop offset).takeWhile isGap).length
  let rest := text.drop first
  if rest.head? = some (.glyph '(') then
    let length := closingSpan (.glyph '(') (.glyph ')') 0 rest
    ((rest.take length).drop 1, first + (rest.take (length + 1)).length)
  else
    let line := rest.takeWhile fun symbol => !symbol.isOneOf "\n;"
    let content := Text.trimLeft line
    if content.isEmpty || content.head? = some (.glyph '=') then ([], offset)
    else (line, first + line.length)

/-- The head with a name between two offsets. -/
def ofName (text : Text) (receiver : Option Text) (nameBegin nameEnd : Nat) : Header :=
  let (parameters, headerEnd) := parametersAt text nameEnd
  { name := (text.take nameEnd).drop nameBegin
    nameBegin := nameBegin
    nameEnd := nameEnd
    receiver := receiver
    parameters := parameters
    headerEnd := headerEnd
    endless := isEndless (text.drop headerEnd) }

/-- The head without a receiver, if a name stands at the offset. -/
def plain? (text : Text) (offset : Nat) : Option Header :=
  let length := nameLength (text.drop offset)
  if length = 0 then none else some (ofName text none offset (offset + length))

/-- The head at the start of a text, if it starts with `def`, a gap and a name. -/
def read? (text : Text) : Option Header :=
  let gap := ((text.drop 3).takeWhile isGap).length
  if !text.startsWith "def" || gap = 0 then none
  else
    let first := 3 + gap
    match receiver? (text.drop first) with
    | none => plain? text first
    | some (length, skipped) =>
        let nameBegin := first + skipped
        let named := nameLength (text.drop nameBegin)
        if named = 0 then plain? text first
        else some (ofName text (some ((text.drop first).take length)) nameBegin (nameBegin + named))

/-- The head with its offsets counted from a place that lies so many symbols before. -/
def shift (header : Header) (distance : Nat) : Header :=
  { header with
    nameBegin := header.nameBegin + distance
    nameEnd := header.nameEnd + distance
    headerEnd := header.headerEnd + distance }

end Header

end AccessorLint.Source
