import AccessorLint.Source.Heredoc
set_option autoImplicit false

/-!
Blanking: hiding what is not code.

The structure of a file is read from a copy in which the contents of strings, regular expressions, comments and
here-documents are spaces.  The copy is aligned with the text symbol by symbol, and newlines stay, so an offset or a
line number means the same in both.

The scan is a sequence of steps over a state.  A step looks at what starts ahead and then moves symbols from ahead to
behind, either keeping them or hiding them; there is no other way to move a symbol, which is why the copy stays
aligned.
-/

namespace AccessorLint.Source

open AccessorLint.Symbol (newline)

/-- The state of the scan.  What lies behind and what is shown for it are kept last symbol first. -/
structure Blanking where
  behind : Text
  ahead : Text
  shown : Text
  pending : List Heredoc
deriving DecidableEq, Repr

/-- What is shown for a hidden symbol. -/
def hidden (symbol : Symbol) : Symbol :=
  if symbol = newline then newline else .glyph ' '

namespace Blanking

/-- The state before the first step. -/
def start (text : Text) : Blanking :=
  ⟨[], text, [], []⟩

/-- Moves past symbols and shows them. -/
def keep (count : Nat) (scan : Blanking) : Blanking :=
  { scan with
    behind := (scan.ahead.take count).reverse ++ scan.behind
    ahead := scan.ahead.drop count
    shown := (scan.ahead.take count).reverse ++ scan.shown }

/-- Moves past symbols and hides them. -/
def hide (count : Nat) (scan : Blanking) : Blanking :=
  { scan with
    behind := (scan.ahead.take count).reverse ++ scan.behind
    ahead := scan.ahead.drop count
    shown := ((scan.ahead.take count).map hidden).reverse ++ scan.shown }

/-- Moves past the body of a literal and its closing delimiter. -/
def skipLiteral (delimiters : Delimiters) (scan : Blanking) : Blanking :=
  (scan.hide (delimiters.bodyLength scan.ahead)).keep 1

/-- Moves past the body of a here-document and the line of its terminator. -/
def skipBody (scan : Blanking) (heredoc : Heredoc) : Blanking :=
  let body := scan.hide (heredoc.bodyLength scan.ahead)
  body.keep (body.ahead.firstLine.length + 1)

/-- Moves past the bodies of the pending here-documents, one after the other. -/
def skipBodies (scan : Blanking) : Blanking :=
  { scan.pending.foldl skipBody scan with pending := [] }

end Blanking

/-! ### Block comments -/

def endsBlockComment (line : Text) : Bool :=
  line.startsWith "=end" && (line.drop 4).head?.all fun symbol => !symbol.isWord

/-- The number of symbols of the block comment at the start of a text, up to the end of the line that ends it. -/
def blockCommentLength (text : Text) : Nat :=
  let body := text.lines.takeWhile fun line => !endsBlockComment line
  Heredoc.stretch body + (Text.firstLine (text.drop (Heredoc.stretch body))).length

/-! ### One step -/

/-- What starts at a place of the text. -/
inductive Opening where
  | lineEnd
  /-- A comment between `=begin` and `=end`. -/
  | blockComment
  /-- A comment up to the end of the line. -/
  | comment
  /-- A literal whose opening delimiter ends after so many symbols. -/
  | literal (delimiters : Delimiters) (length : Nat)
  /-- The announcement of a here-document, with its length. -/
  | heredoc (heredoc : Heredoc) (length : Nat)
  | character
  | code
deriving DecidableEq, Repr

/-- What starts at the place between the text behind and the text ahead. -/
def Opening.read (behind : Text) : Text → Opening
  | [] => .code
  | symbol :: after =>
      if symbol = newline then .lineEnd
      else if behind.head?.all (· = newline) && Text.startsWith (symbol :: after) "=begin" then .blockComment
      else if symbol = .glyph '#' then .comment
      else if isQuote symbol then .literal (.quoted symbol) 1
      else if symbol = .glyph '%' then
        match percentLiteral? behind after with
        | some (delimiters, length) => .literal delimiters length
        | none => .code
      else if symbol = .glyph '<' then
        if after.head? = some (.glyph '<') && behind.head? ≠ some (.glyph '<') then
          match Heredoc.announced? (symbol :: after) with
          | some (announced, length) => .heredoc announced length
          | none => .code
        else .code
      else if symbol = .glyph '/' && startsRegex behind after then .literal .slashes 1
      else if symbol = .glyph '?' && startsCharacter behind after then .character
      else .code

namespace Blanking

/-- One step of the scan.  At the end of the text it changes nothing. -/
def step (scan : Blanking) : Blanking :=
  match Opening.read scan.behind scan.ahead with
  | .lineEnd => (scan.keep 1).skipBodies
  | .blockComment => scan.hide (blockCommentLength scan.ahead)
  | .comment => scan.hide scan.ahead.firstLine.length
  | .literal delimiters length => (scan.keep length).skipLiteral delimiters
  | .heredoc heredoc length => { scan.keep length with pending := scan.pending ++ [heredoc] }
  | .character => (scan.keep 1).hide 1
  | .code => scan.keep 1

/-- So many steps of the scan. -/
def run : Nat → Blanking → Blanking
  | 0, scan => scan
  | steps + 1, scan => run steps scan.step

end Blanking

/-- The copy of a text in which only code is shown.  A step moves at least one symbol, so as many steps as there are
symbols reach the end. -/
def blank (text : Text) : Text :=
  (Blanking.run text.length (Blanking.start text)).shown.reverse

end AccessorLint.Source
