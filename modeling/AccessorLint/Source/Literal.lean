import AccessorLint.Text.Lines
set_option autoImplicit false

/-!
Literals of Ruby source: where one starts, and where it ends.

Whether `%`, `/` or `?` starts a literal or is an operator depends on what stands around it, so the questions of this
module take the text behind the symbol, last symbol first, and the text after it.

Where a literal ends is found by a machine with a stack of frames.  The outermost frame is the literal itself; a
literal that interpolates opens a frame of embedded code at each `#` that a brace follows, and embedded code opens a
frame for each quoted text inside it.  The machine reads one symbol at a time, or two at a backslash, and stops
before the symbol that closes the outermost frame.
-/

namespace AccessorLint.Source

open AccessorLint.Symbol (newline)

/-! ### Delimiters -/

/-- How a literal is written: its delimiters, and whether code may be embedded in it.  Delimiters that differ nest. -/
structure Delimiters where
  opening : Symbol
  closing : Symbol
  interpolates : Bool
deriving DecidableEq, Repr

def isQuote (symbol : Symbol) : Bool :=
  symbol.isOneOf "\"'`"

/-- The delimiters of a quoted text.  Single quotes embed no code. -/
def Delimiters.quoted (quote : Symbol) : Delimiters :=
  ⟨quote, quote, quote != .glyph '\''⟩

/-- The delimiters of a regular expression between slashes. -/
def Delimiters.slashes : Delimiters :=
  ⟨.glyph '/', .glyph '/', true⟩

/-- The delimiter that closes a percent literal: the partner of a bracket, any other symbol itself. -/
def closingOf (opening : Symbol) : Symbol :=
  if opening = .glyph '(' then .glyph ')'
  else if opening = .glyph '[' then .glyph ']'
  else if opening = .glyph '\x7b' then .glyph '\x7d'
  else if opening = .glyph '<' then .glyph '>'
  else opening

/-! ### Where a literal starts -/

/-- Whether the symbol is a space or a tab. -/
def isGap (symbol : Symbol) : Bool :=
  symbol.isOneOf " \t"

/-- The delimiters of the percent literal that a `%` starts, with the number of symbols up to and including the
opening delimiter; nothing if the `%` is an operator.  A letter may name the kind of the literal. -/
def percentLiteral? (behind after : Text) : Option (Delimiters × Nat) :=
  if behind.head?.any fun symbol => symbol.isAlphanumeric || symbol.isOneOf "_)]\x7d" then none
  else
    let kind := after.head?.filter fun symbol => symbol.isOneOf "qQwWiIrsx"
    let body := if kind.isSome then after.drop 1 else after
    match body with
    | [] => none
    | opening :: _ =>
        if opening.isAlphanumeric || opening.isBlank || opening = .glyph '=' then none
        else
          let interpolates := !kind.any fun symbol => symbol.isOneOf "qwis"
          some (⟨opening, closingOf opening, interpolates⟩, if kind.isSome then 3 else 2)

/-- The words after which a `/` starts a regular expression. -/
def regexLeaders : List Text :=
  ["if", "elsif", "unless", "while", "until", "when", "in", "and", "or", "not",
    "return", "then", "else", "do", "case", "yield"]

/-- Whether a `/` starts a regular expression rather than divides.  It does where an operand is due: at the start of
a line, after an operator, an opening bracket or a comma, or after a word that asks for an expression.  After another
word it does only if a gap stands before it and none after it, and another `/` follows on the line. -/
def startsRegex (behind after : Text) : Bool :=
  let gapped := behind.head?.any isGap
  match behind.dropWhile isGap with
  | [] => true
  | previous :: earlier =>
      if previous.isOneOf "\n\r" then true
      else if previous = .glyph ':' && !gapped then false
      else if previous.isOneOf "(,=~!|&\x7b[;?:+-*<>%^" then true
      else if !previous.isWord then false
      else
        let word := ((previous :: earlier).takeWhile Symbol.isWord).reverse
        if regexLeaders.contains word then true
        else if word = "def" || word.head?.any Symbol.isDigit || !gapped then false
        else if after.head?.all fun symbol => symbol.isBlank || symbol = .glyph '=' then false
        else (Text.firstLine after).contains (.glyph '/')

/-- Whether a `?` starts a character literal such as `?a`: one symbol that is not blank and does not run on into a
word, at a place where an operand is due. -/
def startsCharacter (behind after : Text) : Bool :=
  match after with
  | [] => false
  | character :: rest =>
      !character.isBlank && behind.head?.all (fun symbol => symbol.isOneOf " \t(,=[") &&
        rest.head?.all fun symbol => !symbol.isWord

/-! ### Where a literal ends -/

/-- What the machine is inside of, with the number of nested brackets that are open there. -/
inductive Frame where
  | literal (delimiters : Delimiters) (depth : Nat)
  | embedded (depth : Nat)
deriving DecidableEq, Repr

/-- The number of symbols before the one that closes the outermost frame, or the length of the text if none does.
The arguments are the innermost frame, the frames around it and the text. -/
def Frame.span : Frame → List Frame → Text → Nat
  | _, _, [] => 0
  | .literal delimiters depth, outer, symbol :: rest =>
      if symbol = .glyph '\\' then
        match rest with
        | [] => 1
        | _ :: escaped => 2 + span (.literal delimiters depth) outer escaped
      else if delimiters.interpolates && symbol = .glyph '#' && rest.head? = some (.glyph '\x7b') then
        match rest with
        | [] => 1
        | _ :: code => 2 + span (.embedded 0) (.literal delimiters depth :: outer) code
      else if delimiters.opening ≠ delimiters.closing && symbol = delimiters.opening then
        1 + span (.literal delimiters (depth + 1)) outer rest
      else if symbol = delimiters.closing then
        match depth, outer with
        | depth + 1, _ => 1 + span (.literal delimiters depth) outer rest
        | 0, [] => 0
        | 0, around :: others => 1 + span around others rest
      else 1 + span (.literal delimiters depth) outer rest
  | .embedded depth, outer, symbol :: rest =>
      if isQuote symbol then 1 + span (.literal (.quoted symbol) 0) (.embedded depth :: outer) rest
      else if symbol = .glyph '\x7b' then 1 + span (.embedded (depth + 1)) outer rest
      else if symbol = .glyph '\x7d' then
        match depth, outer with
        | depth + 1, _ => 1 + span (.embedded depth) outer rest
        | 0, [] => 0
        | 0, around :: others => 1 + span around others rest
      else 1 + span (.embedded depth) outer rest

/-- The number of symbols of a literal's body: those between its opening delimiter, after which the text starts, and
its closing one.  A literal that is never closed reaches to the end. -/
def Delimiters.bodyLength (delimiters : Delimiters) (text : Text) : Nat :=
  Frame.span (.literal delimiters 0) [] text

end AccessorLint.Source
