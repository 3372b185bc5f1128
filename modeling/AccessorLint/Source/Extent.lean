import AccessorLint.Source.Header
set_option autoImplicit false

/-!
The extent of a method: from its head to the `end` that closes it.

Blanked code is read token by token.  Some words always open a block that an `end` closes; others do so only where a
statement starts, and modify the statement before them elsewhere; `do` opens one unless it belongs to the head of a
loop.  A word is a keyword only if it is not a method name, a symbol, a hash key or a variable.
-/

namespace AccessorLint.Source

open AccessorLint.Symbol (newline)

/-! ### Tokens -/

/-- The length of the token at the start of a text: an identifier, a number, an operator of several symbols, or one
symbol. -/
def tokenLength : Text → Nat
  | [] => 0
  | first :: rest =>
      if first.isNameStart then
        let part := rest.takeWhile Symbol.isNamePart
        1 + part.length + (if (rest.drop part.length).head?.any (fun symbol => symbol.isOneOf "?!") then 1 else 0)
      else if first.isDecimal then
        1 + (rest.takeWhile fun symbol => symbol.isWord || symbol = .glyph '.').length
      else if first = .glyph '.' && Text.startsWith rest ".." then 3
      else if first.isOneOf ":.&|" && rest.head? = some first then 2
      else 1

/-- Whether the symbol stands between tokens.  A newline is a token. -/
def isFiller (symbol : Symbol) : Bool :=
  symbol.isBlank && symbol != newline

/-- Whether a word between the text behind and the text after it stands where a keyword may stand.  It does not in
`object.word`, `:word`, `word:`, `@word` and `$word`. -/
def isKeywordPlace (behind after : Text) : Bool :=
  let single (mark : Symbol) (text : Text) : Bool :=
    text.head? = some mark && (text.drop 1).head? ≠ some mark
  !(behind.head?.any fun symbol => symbol.isOneOf "@$") &&
    !single (.glyph '.') behind && !single (.glyph ':') behind && !single (.glyph ':') after

/-! ### Keywords -/

/-- Words that always open a block. -/
def blockOpeners : List Text := ["class", "module", "begin", "case"]

/-- Words that open a block where a statement starts. -/
def conditionalOpeners : List Text := ["if", "unless", "while", "until", "for"]

/-- Words that head a loop, whose `do` opens no block of its own. -/
def loopHeads : List Text := ["while", "until", "for"]

/-- Words after which a statement starts. -/
def statementLeaders : List Text :=
  ["then", "else", "elsif", "do", "begin", "and", "or", "not", "when", "in", "ensure"]

/-- Tokens that end a value, so that no statement starts after them. -/
def valueEnds : List Text := [")", "]", "\x7d", "\"", "'", "`", "::"]

/-! ### Blocks -/

/-- What is known between two tokens: how many blocks are open inside the one whose end is sought, whether a
statement starts here, and whether the head of a loop may still be followed by its `do`. -/
structure Block where
  inner : Nat
  atStatement : Bool
  awaitsDo : Bool
deriving DecidableEq, Repr

/-- What reading a token leads to: the end of the block, or more tokens after so many symbols. -/
inductive Reading where
  | closed (length : Nat)
  | goesOn (block : Block) (length : Nat)
deriving DecidableEq, Repr

namespace Block

/-- The state right after the head of a method. -/
def opened : Block := ⟨0, true, false⟩

/-- Reads a keyword, which starts the text. -/
def readKeyword (block : Block) (word text : Text) : Reading :=
  if word = "end" then
    match block.inner with
    | 0 => .closed word.length
    | inner + 1 => .goesOn { block with inner := inner, atStatement := false } word.length
  else if word = "def" then
    match Header.read? text with
    | none => .goesOn { block with inner := block.inner + 1, atStatement := false } word.length
    | some header =>
        let inner := if header.endless then block.inner else block.inner + 1
        .goesOn { block with inner := inner, atStatement := header.endless } header.headerEnd
  else if blockOpeners.contains word then
    .goesOn { block with inner := block.inner + 1, atStatement := true } word.length
  else if conditionalOpeners.contains word then
    if block.atStatement then .goesOn ⟨block.inner + 1, true, loopHeads.contains word⟩ word.length
    else .goesOn { block with atStatement := true } word.length
  else if word = "do" then
    .goesOn ⟨if block.awaitsDo then block.inner else block.inner + 1, true, false⟩ word.length
  else .goesOn { block with atStatement := statementLeaders.contains word } word.length

/-- Reads the token at the start of a text. -/
def read (block : Block) (behind text : Text) : Reading :=
  let token := text.take (tokenLength text)
  if token = [newline] || token = ";" then
    .goesOn { block with atStatement := true, awaitsDo := false } token.length
  else if !(token.head?.any fun symbol => symbol.isLetter || symbol = .glyph '_') then
    let starts := !valueEnds.contains token && !token.head?.any Symbol.isDigit
    .goesOn { block with atStatement := starts } token.length
  else if !isKeywordPlace behind (text.drop token.length) then
    .goesOn { block with atStatement := false } token.length
  else block.readKeyword token text

/-- The number of symbols ahead up to and including the `end` that closes the block, or all of them if none does.
Every token has a symbol, so the length of the text is fuel enough. -/
def span : Nat → Block → Text → Text → Nat
  | 0, _, _, ahead => ahead.length
  | fuel + 1, block, behind, ahead =>
      let filler := ahead.takeWhile isFiller
      let text := ahead.drop filler.length
      if text.isEmpty then ahead.length
      else
        match block.read (filler.reverse ++ behind) text with
        | .closed length => filler.length + length
        | .goesOn next length =>
            filler.length + length +
              span fuel next ((text.take length).reverse ++ filler.reverse ++ behind) (text.drop length)

end Block

/-- The offset after the `end` that closes a method whose head ends at an offset, or the length of the code. -/
def blockEnd (code : Text) (offset : Nat) : Nat :=
  min offset code.length +
    Block.span code.length Block.opened (code.take offset).reverse (code.drop offset)

end AccessorLint.Source
