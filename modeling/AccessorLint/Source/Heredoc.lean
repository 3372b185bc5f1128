import AccessorLint.Source.Literal
set_option autoImplicit false

/-!
Here-documents: literals whose body starts on the line after the one that announces them and runs up to a line that
holds only their terminator.
-/

namespace AccessorLint.Source

/-- An announced here-document.  The terminator of an indented one may have blanks around it. -/
structure Heredoc where
  indented : Bool
  terminator : Text
deriving DecidableEq, Repr

namespace Heredoc

/-- The here-document that a text starting with `<<` announces, with the number of symbols of the announcement;
nothing if the text is an operator.  A terminator without marks or quotes has to be in capitals. -/
def announced? (text : Text) : Option (Heredoc × Nat) :=
  let marked := text.drop 2
  let indented := marked.head?.any fun symbol => symbol.isOneOf "~-"
  let quotable := if indented then marked.drop 1 else marked
  let quote := quotable.head?.filter isQuote
  let named := if quote.isSome then quotable.drop 1 else quotable
  let terminator := named.takeWhile Symbol.isWord
  if !named.head?.any Symbol.isNameStart then none
  else if quote.isSome && (named.drop terminator.length).head? ≠ quote then none
  else if indented || quote.isSome || Text.isInCapitals terminator then
    let marks := if indented then 1 else 0
    let quotes := if quote.isSome then 2 else 0
    some (⟨indented, terminator⟩, 2 + marks + quotes + terminator.length)
  else none

/-- Whether the line ends the here-document. -/
def endsAt (heredoc : Heredoc) (line : Text) : Bool :=
  (if heredoc.indented then line.trim else line) == heredoc.terminator

/-- The number of symbols that lines take up in a text, each with its newline. -/
def stretch : List Text → Nat
  | [] => 0
  | line :: rest => line.length + 1 + stretch rest

/-- The number of symbols of the body at the start of a text: the lines before the first that ends the
here-document, or all of them. -/
def bodyLength (heredoc : Heredoc) (text : Text) : Nat :=
  stretch (text.lines.takeWhile fun line => !heredoc.endsAt line)

end Heredoc

end AccessorLint.Source
