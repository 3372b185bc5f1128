import AccessorLint.Pattern.Expr
set_option autoImplicit false

/-!
Reading regular expressions.

The text is first cut into tokens: a backslash belongs to the symbol after it.  Tokens are then read from left to
right, and the first fault is reported with its position.  A backslash at the end of the text is noticed one token
early, when the token before it is taken.

This is a part of the usual language: symbols, `.`, sets, escapes for signs, control characters, kinds of symbols and
edges, `^` and `$`, alternatives, groups with and without capture, repetitions of every greed, and `(?i)` at the start.
The other marks after `(?`, which stand for lookaround, named groups, comments, conditions and further options, are
refused as unknown groups.  References to groups, and symbols told by their number or name, are refused as unknown
escapes.
-/

namespace AccessorLint.Pattern

/-! ### Faults -/

/-- What is wrong with a regular expression. -/
inductive Fault where
  | unclosedGroup
  | unopenedGroup
  | unclosedSet
  | nothingToRepeat
  | repeatedRepetition
  | danglingBackslash
  | unknownEscape (escape : Text)
  | reversedRange (first last : Text)
  | reversedBounds
  | lateOption
  | unknownGroup (mark : Text)
  | earlyEnd
deriving DecidableEq, Repr

/-- A fault and the offset at which it is noticed. -/
structure RegexError where
  fault : Fault
  position : Nat
deriving DecidableEq, Repr

def Fault.message : Fault → Text
  | unclosedGroup => "missing ), unterminated subpattern"
  | unopenedGroup => "unbalanced parenthesis"
  | unclosedSet => "unterminated character set"
  | nothingToRepeat => "nothing to repeat"
  | repeatedRepetition => "multiple repeat"
  | danglingBackslash => "bad escape (end of pattern)"
  | unknownEscape escape => "bad escape " ++ escape
  | reversedRange first last => "bad character range " ++ first ++ "-" ++ last
  | reversedBounds => "min repeat greater than max repeat"
  | lateOption => "global flags not at the start of the expression"
  | unknownGroup mark => "unknown extension ?" ++ mark
  | earlyEnd => "unexpected end of pattern"

def RegexError.message (error : RegexError) : Text :=
  error.fault.message ++ " at position " ++ Text.ofNat error.position

/-! ### Tokens -/

/-- A token: a symbol, or a backslash and the symbol after it. -/
structure Token where
  escaped : Bool
  symbol : Symbol
  position : Nat
deriving DecidableEq, Repr

def Token.text (token : Token) : Text :=
  if token.escaped then [.glyph '\\', token.symbol] else [token.symbol]

/-- Whether the token is a symbol by itself. -/
def Token.is (token : Token) (char : Char) : Bool :=
  !token.escaped && token.symbol = .glyph char

/-- The tokens of a text that starts at an offset.  A backslash at the end is a symbol by itself. -/
def tokens : Nat → Text → List Token
  | _, [] => []
  | offset, [symbol] => [⟨false, symbol, offset⟩]
  | offset, symbol :: next :: rest =>
      if symbol = .glyph '\\' then ⟨true, next, offset⟩ :: tokens (offset + 2) rest
      else ⟨false, symbol, offset⟩ :: tokens (offset + 1) (next :: rest)

/-- What remains to be read, and the offset at which the text ends. -/
structure Input where
  ahead : List Token
  length : Nat
deriving DecidableEq, Repr

/-- Reading with faults. -/
abbrev Result (α : Type) := Except RegexError α

namespace Input

/-- The offset of what comes next. -/
def position (input : Input) : Nat :=
  (input.ahead.head?.map Token.position).getD input.length

/-- Whether the symbol comes next. -/
def startsWith (input : Input) (char : Char) : Bool :=
  input.ahead.head?.any fun token => token.is char

/-- Fails if a backslash without a symbol comes next. -/
def checked (input : Input) : Result Input :=
  if input.startsWith '\\' then .error ⟨.danglingBackslash, input.position⟩ else .ok input

/-- The input after the next token. -/
def skip (input : Input) : Result Input :=
  checked { input with ahead := input.ahead.drop 1 }

/-- The input after a symbol, and whether the symbol came next. -/
def skipIf (input : Input) (char : Char) : Result (Bool × Input) :=
  if input.startsWith char then do
    let rest ← input.skip
    pure (true, rest)
  else pure (false, input)

def fail {α : Type} (fault : Fault) (position : Nat) : Result α :=
  .error ⟨fault, position⟩

end Input

open Input (fail)

/-! ### Escapes -/

/-- The control character that a letter stands for after a backslash. -/
def controlChar? : Char → Option Char
  | 'a' => some '\x07'
  | 'f' => some '\x0c'
  | 'n' => some '\n'
  | 'r' => some '\r'
  | 't' => some '\t'
  | 'v' => some '\x0b'
  | _ => none

/-- The kind of symbols that a letter stands for after a backslash, and whether it stands for the others. -/
def kindEscape? : Char → Option (Kind × Bool)
  | 'd' => some (.digit, true)
  | 'D' => some (.digit, false)
  | 'w' => some (.word, true)
  | 'W' => some (.word, false)
  | 's' => some (.blank, true)
  | 'S' => some (.blank, false)
  | _ => none

/-- The condition that a letter stands for after a backslash. -/
def anchorEscape? : Char → Option Anchor
  | 'A' => some .textStart
  | 'Z' => some .textEnd
  | 'b' => some (.wordEdge true)
  | 'B' => some (.wordEdge false)
  | _ => none

def Member.single (symbol : Symbol) : Member :=
  .range symbol.code symbol.code

/-- The symbol that an escape stands for.  Letters and digits that stand for nothing are refused. -/
def escapedSymbol (token : Token) : Result Symbol :=
  match token.symbol with
  | .glyph char =>
      match controlChar? char with
      | some control => pure (.glyph control)
      | none =>
          if char.isAlphanum then fail (.unknownEscape token.text) token.position else pure (.glyph char)
  | stray => pure stray

/-- The member that an escape stands for inside a set. -/
def escapedMember (token : Token) : Result Member :=
  match token.symbol.char? >>= kindEscape? with
  | some (kind, holds) => pure (.kind kind holds)
  | none =>
      if token.symbol = .glyph 'b' then pure (.single (.glyph '\x08'))
      else do
        let symbol ← escapedSymbol token
        pure (.single symbol)

/-- A part of an expression, and what a quantifier after it would find. -/
inductive Part where
  | plain (expr : Expr)
  | condition (anchor : Anchor)
  | repetition (expr : Expr)
deriving DecidableEq, Repr

def Part.expr : Part → Expr
  | plain expr => expr
  | condition anchor => .anchor anchor
  | repetition expr => expr

/-- The part that an escape stands for outside sets. -/
def escapedPart (token : Token) : Result Part :=
  match token.symbol.char? >>= anchorEscape? with
  | some anchor => pure (.condition anchor)
  | none => do
      let member ← escapedMember token
      pure (.plain (.one (.set [member] true)))

/-! ### Sets -/

/-- The member of a token inside a set. -/
def memberOf (token : Token) : Result Member :=
  if token.escaped then escapedMember token else pure (.single token.symbol)

/-- The range between two tokens. -/
def rangeOf (first last : Token) (low high : Member) : Result Member :=
  match low, high with
  | .range start _, .range stop _ =>
      if stop < start then fail (.reversedRange first.text last.text) first.position else pure (.range start stop)
  | _, _ => fail (.reversedRange first.text last.text) first.position

/-- Reads the members of a set that was opened at a position, after those already read.  A closing bracket is a
member if it comes first, and a `-` is one if it comes last. -/
def readMembers (opened : Nat) : Nat → List Member → Input → Result (List Member × Input)
  | 0, _, _ => fail .unclosedSet opened
  | fuel + 1, read, input =>
      match input.ahead with
      | [] => fail .unclosedSet opened
      | token :: _ => do
          let input ← input.skip
          if token.is ']' && !read.isEmpty then pure (read, input)
          else
            let member ← memberOf token
            let (ranged, input) ← input.skipIf '-'
            if !ranged then readMembers opened fuel (read ++ [member]) input
            else
              match input.ahead with
              | [] => fail .unclosedSet opened
              | last :: _ => do
                  let input ← input.skip
                  if last.is ']' then pure (read ++ [member, .single (.glyph '-')], input)
                  else
                    let high ← memberOf last
                    let range ← rangeOf token last member high
                    readMembers opened fuel (read ++ [range]) input

/-- Reads a set whose bracket has been taken. -/
def readSet (opened : Nat) (input : Input) : Result (Part × Input) := do
  let (negated, input) ← input.skipIf '^'
  let (members, input) ← readMembers opened (input.ahead.length + 1) [] input
  pure (.plain (.one (.set members (!negated))), input)

/-! ### Quantifiers -/

def readDigits : Nat → List Char → Input → Result (List Char × Input)
  | 0, read, input => pure (read, input)
  | fuel + 1, read, input =>
      match input.ahead with
      | ⟨false, .glyph char, _⟩ :: _ =>
          if char.isDigit then do
            let rest ← input.skip
            readDigits fuel (read ++ [char]) rest
          else pure (read, input)
      | _ => pure (read, input)

def numberOf (digits : List Char) : Nat :=
  digits.foldl (fun number digit => 10 * number + (digit.toNat - '0'.toNat)) 0

/-- The bounds of a quantifier, or nothing if its brace stands for itself. -/
abbrev Bounds := Option (Nat × Option Nat)

/-- Reads the bounds after an opening brace. -/
def readBounds (input : Input) : Result (Bounds × Input) := do
  let opened := input
  if input.startsWith '\x7d' then pure (none, opened)
  else
    let (low, input) ← readDigits input.ahead.length [] input
    let (divided, input) ← input.skipIf ','
    let (high, input) ← if divided then readDigits input.ahead.length [] input else pure (low, input)
    let (closed, input) ← input.skipIf '\x7d'
    if !closed then pure (none, opened)
    else
      let least := numberOf low
      let most := if high.isEmpty then none else some (numberOf high)
      if most.any (· < least) then fail .reversedBounds opened.position else pure (some (least, most), input)

/-- The last part repeated, once its quantifier, which was found at a position, has been read. -/
def repeatLast (position : Nat) (bounds : Nat × Option Nat) (read : List Part) (input : Input) :
    Result (List Part × Input) :=
  match read.getLast? with
  | none | some (.condition _) => fail .nothingToRepeat position
  | some (.repetition _) => fail .repeatedRepetition position
  | some (.plain item) => do
      let (lazy, input) ← input.skipIf '?'
      let (possessive, input) ← if lazy then pure (false, input) else input.skipIf '+'
      let greed : Greed := if lazy then .lazy else if possessive then .possessive else .greedy
      pure (read.dropLast ++ [.repetition (.repetition item bounds.1 bounds.2 greed)], input)

/-! ### Expressions -/

def sequenceOf (parts : List Part) : Expr :=
  parts.foldr (fun part rest => .sequence part.expr rest) .empty

/-- What has been read, whether the expression has been told to ignore case, and what is left. -/
structure Read (α : Type) where
  value : α
  ignoresCase : Bool
  input : Input

mutual

/-- Reads alternatives up to the end of a group or of the text. -/
def readChoice (nested : Bool) : Nat → Bool → Bool → Input → Result (Read Expr)
  | 0, ignoresCase, _, input => pure ⟨.empty, ignoresCase, input⟩
  | fuel + 1, ignoresCase, first, input => do
      let read ← readSequence (first && !nested) fuel ignoresCase [] input
      let (more, input) ← read.input.skipIf '|'
      if more then
        let others ← readChoice nested fuel read.ignoresCase false input
        pure ⟨.choice read.value others.value, others.ignoresCase, others.input⟩
      else pure ⟨read.value, read.ignoresCase, input⟩

/-- Reads parts in sequence, after those already read. -/
def readSequence (first : Bool) : Nat → Bool → List Part → Input → Result (Read Expr)
  | 0, ignoresCase, read, input => pure ⟨sequenceOf read, ignoresCase, input⟩
  | fuel + 1, ignoresCase, read, input =>
      match input.ahead with
      | [] => pure ⟨sequenceOf read, ignoresCase, input⟩
      | token :: _ =>
          if token.is '|' || token.is ')' then pure ⟨sequenceOf read, ignoresCase, input⟩
          else do
            let position := token.position
            let input ← input.skip
            if token.escaped then
              let part ← escapedPart token
              readSequence first fuel ignoresCase (read ++ [part]) input
            else if token.is '[' then
              let (part, input) ← readSet position input
              readSequence first fuel ignoresCase (read ++ [part]) input
            else if token.is '\x7b' then
              let (bounds, input) ← readBounds input
              match bounds with
              | none =>
                  let literal := Part.plain (.one (.set [.single token.symbol] true))
                  readSequence first fuel ignoresCase (read ++ [literal]) input
              | some bounds =>
                  let (read, input) ← repeatLast position bounds read input
                  readSequence first fuel ignoresCase read input
            else if token.is '*' || token.is '+' || token.is '?' then
              let bounds := if token.is '*' then (0, none) else if token.is '+' then (1, none) else (0, some 1)
              let (read, input) ← repeatLast position bounds read input
              readSequence first fuel ignoresCase read input
            else if token.is '.' then
              readSequence first fuel ignoresCase (read ++ [.plain (.one .any)]) input
            else if token.is '^' then
              readSequence first fuel ignoresCase (read ++ [.condition .textStart]) input
            else if token.is '$' then
              readSequence first fuel ignoresCase (read ++ [.condition .lineEnd]) input
            else if token.is '(' then
              let (marked, input) ← input.skipIf '?'
              if marked then
                match input.ahead with
                | [] => fail .earlyEnd input.length
                | mark :: _ =>
                    let input ← input.skip
                    if mark.is ':' then
                      let group ← readGroup position fuel ignoresCase input
                      readSequence first fuel group.ignoresCase (read ++ [group.value]) group.input
                    else if mark.is 'i' && input.startsWith ')' then
                      let input ← input.skip
                      if first && read.isEmpty then readSequence first fuel true read input
                      else fail .lateOption position
                    else fail (.unknownGroup mark.text) (mark.position - 1)
              else
                let group ← readGroup position fuel ignoresCase input
                readSequence first fuel group.ignoresCase (read ++ [group.value]) group.input
            else
              let literal := Part.plain (.one (.set [.single token.symbol] true))
              readSequence first fuel ignoresCase (read ++ [literal]) input

/-- Reads the rest of a group that was opened at a position. -/
def readGroup (opened : Nat) : Nat → Bool → Input → Result (Read Part)
  | 0, _, _ => fail .unclosedGroup opened
  | fuel + 1, ignoresCase, input => do
      let choice ← readChoice true fuel ignoresCase false input
      let (closed, input) ← choice.input.skipIf ')'
      if closed then pure ⟨.plain choice.value, choice.ignoresCase, input⟩ else fail .unclosedGroup opened

end

/-- The regular expression that a text of this language writes.  Each level of reading takes a token or hands on to the
next, so three turns for each token are fuel enough. -/
def Regex.read (text : Text) : Except RegexError Regex := do
  let input ← Input.checked ⟨tokens 0 text, text.length⟩
  let read ← readChoice false (3 * text.length + 3) false true input
  if read.input.ahead.isEmpty then pure ⟨read.value, read.ignoresCase⟩
  else fail .unopenedGroup read.input.position

end AccessorLint.Pattern
