import AccessorLint.Text.Class
set_option autoImplicit false

/-!
Tokens of YAML.

A scan reads a text from left to right.  It keeps the columns at which the open block collections start, and opens and
closes collections as the column of the next token asks for.  That a scalar or a collection was a key shows only at
the colon after it; the scan therefore remembers where a key may have started, and puts the tokens of a key in when
the colon comes.  Such a key has to end on the line on which it starts.

The scan covers what settings are written in: block and flow collections, plain and quoted scalars, comments and the
marks of a document.  It refuses directives, anchors, aliases, tags and block scalars.
-/

namespace AccessorLint.Yaml

inductive Token where
  | documentStart
  | documentEnd
  | blockSequenceStart
  | blockMappingStart
  | blockEnd
  | flowSequenceStart
  | flowSequenceEnd
  | flowMappingStart
  | flowMappingEnd
  | blockEntry
  | flowEntry
  | key
  | value
  /-- A scalar, and whether it stands without quotes. -/
  | scalar (text : Text) (plain : Bool)
deriving DecidableEq, Repr

/-! ### Symbols -/

/-- Whether the symbol ends a line. -/
def isBreak (symbol : Symbol) : Bool :=
  symbol.isOneOf "\r\n\u0085\u2028\u2029"

/-- Whether the symbol is a space or a tab. -/
def isSpace (symbol : Symbol) : Bool :=
  symbol.isOneOf " \t"

/-- Whether a token ends before the next symbol: there is none, or it is a space, a tab or the end of a line. -/
def isEdge (symbol : Option Symbol) : Bool :=
  symbol.all fun symbol => isSpace symbol || isBreak symbol

/-- Whether a text may hold the symbol at all. -/
def isAllowed : Symbol → Bool
  | .glyph char =>
      let code := char.toNat
      char = '\t' || char = '\n' || char = '\r' || (0x20 ≤ code && code ≤ 0x7E) || code = 0x85 ||
        (0xA0 ≤ code && code ≤ 0xFFFD) || 0x10000 ≤ code
  | .stray _ => false

/-! ### States -/

/-- Where a key may have started. -/
structure PossibleKey where
  tokenNumber : Nat
  /-- Whether a key has to start there. -/
  required : Bool
  index : Nat
  line : Nat
  column : Nat
deriving DecidableEq, Repr

structure Scan where
  ahead : Text
  index : Nat
  line : Nat
  column : Nat
  /-- The number of flow collections that are open. -/
  flowLevel : Nat
  /-- The column of the innermost block collection. -/
  indent : Int
  /-- The columns of the collections around it. -/
  indents : List Int
  allowsKey : Bool
  /-- The possible key of each level of flow collections. -/
  keys : List (Nat × PossibleKey)
  tokens : List Token
deriving DecidableEq, Repr

namespace Scan

def start (text : Text) : Scan :=
  { ahead := text, index := 0, line := 0, column := 0, flowLevel := 0, indent := -1, indents := [],
    allowsKey := true, keys := [], tokens := [] }

def peek (scan : Scan) : Option Symbol :=
  scan.ahead.head?

/-- Whether the symbol is next. -/
def sees (scan : Scan) (char : Char) : Bool :=
  scan.peek = some (.glyph char)

/-- Whether the symbol is next and a token ends after it. -/
def seesMark (scan : Scan) (char : Char) : Bool :=
  scan.sees char && isEdge scan.ahead[1]?

/-- Moves past symbols. -/
def advance : Nat → Scan → Scan
  | 0, scan => scan
  | count + 1, scan =>
      match scan.ahead with
      | [] => scan
      | symbol :: rest =>
          let moved := { scan with ahead := rest, index := scan.index + 1 }
          if isBreak symbol then advance count { moved with line := scan.line + 1, column := 0 }
          else if symbol = .glyph '\ufeff' then advance count moved
          else advance count { moved with column := scan.column + 1 }

/-- The state with a token more. -/
def push (scan : Scan) (token : Token) : Scan :=
  { scan with tokens := scan.tokens ++ [token] }

def seesDocumentMark (scan : Scan) : Bool :=
  (scan.ahead.startsWith "---" || scan.ahead.startsWith "...") && isEdge scan.ahead[3]?

/-! ### Columns -/

/-- Closes block collections that start to the right of a column. -/
def unwind (column : Int) : Nat → Scan → Scan
  | 0, scan => scan
  | fuel + 1, scan =>
      if 0 < scan.flowLevel || scan.indent ≤ column then scan
      else
        unwind column fuel
          { scan.push .blockEnd with indent := scan.indents.headD (-1), indents := scan.indents.drop 1 }

/-- Closes block collections that start to the right of a column. -/
def closeTo (scan : Scan) (column : Int) : Scan :=
  scan.unwind column (scan.indents.length + 1)

/-- Opens a block collection at a column, unless one starts there or to the right of it. -/
def openAt (scan : Scan) (column : Nat) : Bool × Scan :=
  if scan.indent < column then (true, { scan with indent := column, indents := scan.indent :: scan.indents })
  else (false, scan)

/-! ### Possible keys -/

/-- Forgets the possible key of the level, which must not be one that is required. -/
def forgetKey (scan : Scan) : Option Scan :=
  match scan.keys.lookup scan.flowLevel with
  | none => some scan
  | some key =>
      if key.required then none
      else some { scan with keys := scan.keys.filter fun (level, _) => level ≠ scan.flowLevel }

/-- Remembers that a key may start here. -/
def rememberKey (scan : Scan) : Option Scan :=
  if !scan.allowsKey then some scan
  else do
    let scan ← scan.forgetKey
    let key : PossibleKey :=
      { tokenNumber := scan.tokens.length
        required := scan.flowLevel = 0 && scan.indent = scan.column
        index := scan.index
        line := scan.line
        column := scan.column }
    some { scan with keys := (scan.flowLevel, key) :: scan.keys }

/-- Forgets the possible keys that are too far behind: on another line, or more than 1024 symbols back. -/
def forgetStale (scan : Scan) : Option Scan :=
  let isStale (key : PossibleKey) : Bool := key.line ≠ scan.line || 1024 < scan.index - key.index
  if scan.keys.any fun (_, key) => isStale key && key.required then none
  else some { scan with keys := scan.keys.filter fun (_, key) => !isStale key }

/-! ### Between tokens -/

/-- Moves past spaces, comments and ends of lines.  After the end of a line a key may start in a block. -/
def skipFiller : Nat → Scan → Scan
  | 0, scan => scan
  | fuel + 1, scan =>
      let spaced := scan.advance (scan.ahead.takeWhile (· = .glyph ' ')).length
      let bare :=
        if spaced.sees '#' then spaced.advance (spaced.ahead.takeWhile fun symbol => !isBreak symbol).length
        else spaced
      match bare.peek with
      | some symbol =>
          if isBreak symbol then
            let next := bare.advance 1
            skipFiller fuel (if next.flowLevel = 0 then { next with allowsKey := true } else next)
          else bare
      | none => bare

/-! ### Scalars -/

/-- The text of the end of a line inside a scalar. -/
def breakText (symbol : Symbol) : Symbol :=
  if symbol.isOneOf "\u2028\u2029" then symbol else .glyph '\n'

/-- The text of a fold: the first end of a line is a space unless others follow. -/
def foldText (first : Symbol) (others : Text) : Text :=
  if breakText first ≠ .glyph '\n' then breakText first :: others
  else if others.isEmpty then " "
  else others

/-- Reads empty lines inside a quoted scalar.  There must be no mark of a document. -/
def quotedBreaks : Nat → Text → Scan → Option (Text × Scan)
  | 0, _, _ => none
  | fuel + 1, read, scan =>
      if scan.seesDocumentMark then none
      else
        let spaced := scan.advance (scan.ahead.takeWhile isSpace).length
        match spaced.peek with
        | some symbol =>
            if isBreak symbol then quotedBreaks fuel (read ++ [breakText symbol]) (spaced.advance 1)
            else some (read, spaced)
        | none => some (read, spaced)

/-- The character that a letter stands for after a backslash. -/
def escapeChar? : Char → Option Char
  | '0' => some '\x00'
  | 'a' => some '\x07'
  | 'b' => some '\x08'
  | 't' => some '\t'
  | '\t' => some '\t'
  | 'n' => some '\n'
  | 'v' => some '\x0b'
  | 'f' => some '\x0c'
  | 'r' => some '\r'
  | 'e' => some '\x1b'
  | ' ' => some ' '
  | '"' => some '"'
  | '\\' => some '\\'
  | '/' => some '/'
  | 'N' => some '\u0085'
  | '_' => some '\u00a0'
  | 'L' => some '\u2028'
  | 'P' => some '\u2029'
  | _ => none

/-- The number of hexadecimal digits after a letter. -/
def escapeWidth? : Char → Option Nat
  | 'x' => some 2
  | 'u' => some 4
  | 'U' => some 8
  | _ => none

/-- The value of a hexadecimal digit. -/
def hexValue? : Symbol → Option Nat
  | .glyph char =>
      if char.isDigit then some (char.toNat - '0'.toNat)
      else if 'a' ≤ char && char ≤ 'f' then some (char.toNat - 'a'.toNat + 10)
      else if 'A' ≤ char && char ≤ 'F' then some (char.toNat - 'A'.toNat + 10)
      else none
  | .stray _ => none

/-- The character of a code in hexadecimal. -/
def codeChar? (digits : Text) : Option Symbol := do
  let values ← digits.mapM hexValue?
  let code := values.foldl (fun number value => 16 * number + value) 0
  if code.isValidChar then some (.glyph (Char.ofNat code)) else none

/-- Reads an escape, whose backslash has been passed. -/
def escape (scan : Scan) : Option (Text × Scan) := do
  let symbol ← scan.peek
  if isBreak symbol then quotedBreaks (scan.ahead.length + 1) [] (scan.advance 1)
  else
    let char ← symbol.char?
    match escapeChar? char with
    | some meant => some ([.glyph meant], scan.advance 1)
    | none =>
        let width ← escapeWidth? char
        let digits := (scan.ahead.drop 1).take width
        if digits.length < width then none
        else
          let meant ← codeChar? digits
          some ([meant], scan.advance (1 + width))

/-- Reads a quoted scalar up to its closing quote.  Single quotes know one escape, the doubled quote; double quotes
know many.  Ends of lines are folded. -/
def quotedRest (double : Bool) : Nat → Text → Scan → Option (Text × Scan)
  | 0, _, _ => none
  | fuel + 1, read, scan =>
      let spaces := scan.ahead.takeWhile isSpace
      let spaced := scan.advance spaces.length
      match spaced.ahead with
      | [] => none
      | symbol :: after =>
          if isBreak symbol then do
            let (others, next) ← quotedBreaks (after.length + 1) [] (spaced.advance 1)
            quotedRest double fuel (read ++ foldText symbol others) next
          else if double then
            if symbol = .glyph '"' then some (read ++ spaces, spaced.advance 1)
            else if symbol = .glyph '\\' then do
              let (meant, next) ← escape (spaced.advance 1)
              quotedRest double fuel (read ++ spaces ++ meant) next
            else quotedRest double fuel (read ++ spaces ++ [symbol]) (spaced.advance 1)
          else if symbol = .glyph '\'' then
            if after.head? = some symbol then quotedRest double fuel (read ++ spaces ++ [symbol]) (spaced.advance 2)
            else some (read ++ spaces, spaced.advance 1)
          else quotedRest double fuel (read ++ spaces ++ [symbol]) (spaced.advance 1)

/-- Reads a quoted scalar. -/
def quoted (scan : Scan) (double : Bool) : Option Scan := do
  let scan ← scan.rememberKey
  let (text, next) ← quotedRest double (scan.ahead.length + 1) [] ({ scan with allowsKey := false }.advance 1)
  some (next.push (.scalar text false))

/-- The number of symbols before the first at which a plain scalar has to pause: a space, the end of a line, a colon
before an edge, or a symbol of flow collections inside one. -/
def plainLength (inFlow : Bool) : Text → Nat
  | [] => 0
  | symbol :: rest =>
      let next := rest.head?
      let endsKey := symbol = .glyph ':' &&
        (isEdge next || (inFlow && next.any fun symbol => symbol.isOneOf ",[]\x7b\x7d"))
      if isSpace symbol || isBreak symbol || endsKey || (inFlow && symbol.isOneOf ",?[]\x7b\x7d") then 0
      else 1 + plainLength inFlow rest

/-- Reads empty lines inside a plain scalar, and the spaces before the next line.  At a mark of a document nothing is
read. -/
def plainBreaks : Nat → Text → Scan → Option Text × Scan
  | 0, read, scan => (some read, scan)
  | fuel + 1, read, scan =>
      match scan.peek with
      | some symbol =>
          if symbol = .glyph ' ' then plainBreaks fuel read (scan.advance 1)
          else if isBreak symbol then
            let next := scan.advance 1
            if next.seesDocumentMark then (none, next) else plainBreaks fuel (read ++ [breakText symbol]) next
          else (some read, scan)
      | none => (some read, scan)

/-- Reads what stands between two parts of a plain scalar, if the scalar may go on after it. -/
def plainSpaces (scan : Scan) : Option Text × Scan :=
  let spaces := scan.ahead.takeWhile (· = .glyph ' ')
  let spaced := scan.advance spaces.length
  match spaced.peek with
  | some symbol =>
      if isBreak symbol then
        let next := { spaced.advance 1 with allowsKey := true }
        if next.seesDocumentMark then (none, next)
        else
          match plainBreaks (next.ahead.length + 1) [] next with
          | (some others, later) => (some (foldText symbol others), later)
          | (none, later) => (none, later)
      else (if spaces.isEmpty then none else some spaces, spaced)
  | none => (if spaces.isEmpty then none else some spaces, spaced)

/-- Reads a plain scalar, after a part of it and the spaces after that part.  In a block it goes on only to the right
of a column. -/
def plainRest (column : Int) : Nat → Text → Text → Scan → Text × Scan
  | 0, read, _, scan => (read, scan)
  | fuel + 1, read, spaces, scan =>
      let length := if scan.sees '#' then 0 else plainLength (0 < scan.flowLevel) scan.ahead
      if length = 0 then (read, scan)
      else
        let part := scan.ahead.take length
        let (between, next) := plainSpaces ({ scan with allowsKey := false }.advance length)
        let text := read ++ spaces ++ part
        match between with
        | none => (text, next)
        | some between =>
            if next.sees '#' || (next.flowLevel = 0 && next.column < column) then (text, next)
            else plainRest column fuel text between next

/-- Reads a plain scalar. -/
def plain (scan : Scan) : Option Scan := do
  let scan ← scan.rememberKey
  let (text, next) := plainRest (scan.indent + 1) (scan.ahead.length + 1) [] [] { scan with allowsKey := false }
  some (next.push (.scalar text true))

/-- Whether a plain scalar may start here. -/
def seesPlain (scan : Scan) : Bool :=
  match scan.ahead with
  | [] => false
  | symbol :: rest =>
      (!isSpace symbol && !isBreak symbol && !symbol.isOneOf "-?:,[]\x7b\x7d#&*!|>'\"%@`") ||
        (!isEdge rest.head? && (symbol = .glyph '-' || (scan.flowLevel = 0 && symbol.isOneOf "?:")))

/-! ### Tokens -/

def documentMark (scan : Scan) (token : Token) : Option Scan := do
  let scan ← (scan.closeTo (-1)).forgetKey
  some (({ scan with allowsKey := false }.advance 3).push token)

/-- Reads the start of a flow collection, which may be a key. -/
def openFlow (scan : Scan) (token : Token) : Option Scan := do
  let scan ← scan.rememberKey
  some (({ scan with flowLevel := scan.flowLevel + 1, allowsKey := true }.advance 1).push token)

/-- Reads the end of a flow collection. -/
def closeFlow (scan : Scan) (token : Token) : Option Scan := do
  let scan ← scan.forgetKey
  if scan.flowLevel = 0 then none
  else some (({ scan with flowLevel := scan.flowLevel - 1, allowsKey := false }.advance 1).push token)

/-- Reads a comma. -/
def flowEntry (scan : Scan) : Option Scan := do
  let scan ← { scan with allowsKey := true }.forgetKey
  some ((scan.advance 1).push .flowEntry)

/-- Opens a block collection at the column of the scan, if one has to be opened there. -/
def openBlock (scan : Scan) (token : Token) : Scan :=
  match scan.openAt scan.column with
  | (true, opened) => opened.push token
  | (false, same) => same

/-- Reads the hyphen of an entry. -/
def blockEntry (scan : Scan) : Option Scan :=
  if scan.flowLevel = 0 && !scan.allowsKey then none
  else do
    let opened := if scan.flowLevel = 0 then scan.openBlock .blockSequenceStart else scan
    let scan ← { opened with allowsKey := true }.forgetKey
    some ((scan.advance 1).push .blockEntry)

/-- Reads the question mark of a key. -/
def explicitKey (scan : Scan) : Option Scan :=
  if scan.flowLevel = 0 && !scan.allowsKey then none
  else do
    let opened := if scan.flowLevel = 0 then scan.openBlock .blockMappingStart else scan
    let scan ← { opened with allowsKey := scan.flowLevel = 0 }.forgetKey
    some ((scan.advance 1).push .key)

/-- Puts tokens in before the token with a number. -/
def insertAt (number : Nat) (inserted tokens : List Token) : List Token :=
  tokens.take number ++ inserted ++ tokens.drop number

/-- Reads the colon before a value.  If a key may have started on this level, it did. -/
def value (scan : Scan) : Option Scan :=
  match scan.keys.lookup scan.flowLevel with
  | some key =>
      let (opens, opened) := if scan.flowLevel = 0 then scan.openAt key.column else (false, scan)
      let inserted := if opens then [Token.blockMappingStart, .key] else [.key]
      let marked :=
        { opened with
          keys := opened.keys.filter fun (level, _) => level ≠ scan.flowLevel
          tokens := insertAt key.tokenNumber inserted opened.tokens
          allowsKey := false }
      some ((marked.advance 1).push .value)
  | none =>
      if scan.flowLevel = 0 && !scan.allowsKey then none
      else do
        let opened := if scan.flowLevel = 0 then scan.openBlock .blockMappingStart else scan
        let scan ← { opened with allowsKey := scan.flowLevel = 0 }.forgetKey
        some ((scan.advance 1).push .value)

/-- Reads the next token, which is there. -/
def readToken (scan : Scan) : Option Scan :=
  let inFlow := decide (0 < scan.flowLevel)
  if scan.column = 0 && scan.sees '%' then none
  else if scan.column = 0 && scan.seesDocumentMark then
    scan.documentMark (if scan.sees '-' then .documentStart else .documentEnd)
  else if scan.sees '[' then scan.openFlow .flowSequenceStart
  else if scan.sees '\x7b' then scan.openFlow .flowMappingStart
  else if scan.sees ']' then scan.closeFlow .flowSequenceEnd
  else if scan.sees '\x7d' then scan.closeFlow .flowMappingEnd
  else if scan.sees ',' then scan.flowEntry
  else if scan.seesMark '-' then scan.blockEntry
  else if scan.seesMark '?' || (inFlow && scan.sees '?') then scan.explicitKey
  else if scan.seesMark ':' || (inFlow && scan.sees ':') then scan.value
  else if scan.sees '\'' then scan.quoted false
  else if scan.sees '"' then scan.quoted true
  else if scan.seesPlain then scan.plain
  else none

/-- Reads tokens to the end of the text. -/
def run : Nat → Scan → Option Scan
  | 0, _ => none
  | fuel + 1, scan => do
      let bare := scan.skipFiller (scan.ahead.length + 1)
      let fresh ← bare.forgetStale
      let closed := fresh.closeTo fresh.column
      if closed.ahead.isEmpty then (closed.closeTo (-1)).forgetKey
      else
        let next ← closed.readToken
        run fuel next

end Scan

/-- The tokens of a text, if it can be read.  A mark of byte order at its start means nothing. -/
def tokens? (text : Text) : Option (List Token) :=
  if !text.all isAllowed then none
  else
    let start := Scan.start text
    let start := if start.sees '\ufeff' then start.advance 1 else start
    (start.run (text.length + 1)).map Scan.tokens

end AccessorLint.Yaml
