import AccessorLint.Source.Blanking
import AccessorLint.Source.Extent
import AccessorLint.Source.Position
set_option autoImplicit false

/-!
The method definitions of a file.

Definitions are found in blanked code, nested ones included, and described by the text they were found in.
-/

namespace AccessorLint.Source

/-- A method definition in code: the offset of its `def`, its head with offsets counted from the start of the code,
and the offset after it. -/
structure Definition where
  start : Nat
  header : Header
  stop : Nat
deriving DecidableEq, Repr

namespace Definition

/-- The definition whose `def` starts the text ahead. -/
def at? (behind ahead : Text) : Option Definition :=
  if ahead.startsWith "def" && !behind.head?.any Symbol.isWord && !(ahead.drop 3).head?.any Symbol.isWord &&
      isKeywordPlace behind (ahead.drop 3) then
    (Header.read? ahead).map fun header =>
      let body := ahead.drop header.headerEnd
      let length :=
        if header.endless then (Text.firstLine body).length
        else Block.span body.length Block.opened ((ahead.take header.headerEnd).reverse ++ behind) body
      { start := behind.length
        header := header.shift behind.length
        stop := behind.length + header.headerEnd + length }
  else none

/-- The definitions in the code ahead, in order. -/
def within (behind : Text) : Text → List Definition
  | [] => []
  | symbol :: rest =>
      (at? behind (symbol :: rest)).toList ++ Definition.within (symbol :: behind) rest

/-- The definitions in blanked code, in order. -/
def all (code : Text) : List Definition :=
  Definition.within [] code

end Definition

/-- A stretch of a text, with the line and column of its start. -/
structure Range where
  start : Nat
  stop : Nat
  line : Nat
  column : Nat
deriving DecidableEq, Repr

/-- A method definition as the rules see it. -/
structure Declaration where
  name : Text
  argumentCount : Nat
  /-- The text of the whole definition. -/
  sourceText : Text
  /-- Where the name stands. -/
  nameRange : Range
  filePath : Text
  /-- The first and the last line of the definition. -/
  relatedLines : Nat × Nat
  receiver : Option Text
deriving DecidableEq, Repr

namespace Declaration

/-- The description of a definition by the text in which it stands. -/
def ofDefinition (text filePath : Text) (starts : List Nat) (definition : Definition) : Declaration :=
  let header := definition.header
  let place := position starts header.nameBegin
  { name := header.name
    argumentCount := countArguments header.parameters
    sourceText := (text.take definition.stop).drop definition.start
    nameRange := ⟨header.nameBegin, header.nameEnd, place.1, place.2⟩
    filePath := filePath
    relatedLines :=
      ((position starts definition.start).1, (position starts (max definition.start (definition.stop - 1))).1)
    receiver := header.receiver }

/-- The method definitions of a file, in order. -/
def scan (text filePath : Text) : List Declaration :=
  (Definition.all (blank text)).map (ofDefinition text filePath (lineStarts text))

end Declaration

end AccessorLint.Source
