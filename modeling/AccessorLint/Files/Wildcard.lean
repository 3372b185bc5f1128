import AccessorLint.Text.Symbol
set_option autoImplicit false

/-!
Wildcard patterns: `*` stands for any text, `?` for any symbol, and brackets for one symbol of a set.  There are no
escapes, and a slash is a symbol like any other.

A set is negated by `!` in front.  A closing bracket that comes first is a member.  A range that runs backwards is
dropped from its set together with its ends; a set that is left without members matches nothing, and its negation
matches everything.
-/

namespace AccessorLint.Wildcard

/-- What one place of a pattern asks for. -/
inductive Item where
  /-- Any text. -/
  | anything
  | anySymbol
  /-- A symbol in one of the ranges of code points, or one in none of them. -/
  | set (ranges : List (Nat × Nat)) (holds : Bool)
deriving DecidableEq, Repr

/-! ### Sets -/

/-- Cuts the content of a set into chunks at the hyphens that make ranges.  A hyphen makes one if a symbol stands
before it that ends no other range, and a symbol after it.  The number says how many symbols cannot be cut at. -/
def chunks : Nat → Text → Text → List Text
  | _, chunk, [] => [chunk]
  | 0, chunk, symbol :: rest =>
      if symbol = .glyph '-' then
        if rest.isEmpty then [chunk ++ [symbol]] else chunk :: chunks 2 [] rest
      else chunks 0 (chunk ++ [symbol]) rest
  | held + 1, chunk, symbol :: rest => chunks held (chunk ++ [symbol]) rest

/-- Joins the chunks around a range that runs backwards, without its ends. -/
def dropReversed : List Text → List Text
  | [] => []
  | chunk :: rest =>
      match dropReversed rest with
      | [] => [chunk]
      | next :: later =>
          match chunk.getLast?, next.head? with
          | some low, some high =>
              if high.code < low.code then (chunk.dropLast ++ next.drop 1) :: later else chunk :: next :: later
          | _, _ => chunk :: next :: later

/-- The ranges of chunks: one between neighbours, and every symbol by itself. -/
def rangesOf : List Text → List (Nat × Nat)
  | [] => []
  | [chunk] => chunk.map fun symbol => (symbol.code, symbol.code)
  | chunk :: next :: rest =>
      let single := chunk.map fun symbol => (symbol.code, symbol.code)
      match chunk.getLast?, next.head? with
      | some low, some high => single ++ (low.code, high.code) :: rangesOf (next :: rest)
      | _, _ => single ++ rangesOf (next :: rest)

/-- The item of a set, from the symbols between its brackets. -/
def setItem (content : Text) : Item :=
  let negated := content.head? = some (.glyph '!')
  match dropReversed (chunks (if negated then 2 else 1) [] content) with
  | [] => .set [] true
  | first :: rest =>
      if first.head? = some (.glyph '!') then .set (rangesOf (first.drop 1 :: rest)) false
      else .set (rangesOf (first :: rest)) true

/-- The number of symbols of a set after its opening bracket, up to the closing one, if there is one. -/
def setLength? (text : Text) : Option Nat :=
  let marks := if text.head? = some (.glyph '!') then 1 else 0
  let first := if (text.drop marks).head? = some (.glyph ']') then marks + 1 else marks
  let body := (text.drop first).takeWhile (· ≠ .glyph ']')
  if first + body.length < text.length then some (first + body.length) else none

/-! ### Patterns -/

/-- The items of a pattern, the first so many symbols of which have been read. -/
def itemsAfter : Nat → Text → List Item
  | _, [] => []
  | read + 1, _ :: rest => itemsAfter read rest
  | 0, symbol :: rest =>
      if symbol = .glyph '*' then .anything :: itemsAfter 0 rest
      else if symbol = .glyph '?' then .anySymbol :: itemsAfter 0 rest
      else if symbol = .glyph '[' then
        match setLength? rest with
        | some length => setItem (rest.take length) :: itemsAfter (length + 1) rest
        | none => .set [(symbol.code, symbol.code)] true :: itemsAfter 0 rest
      else .set [(symbol.code, symbol.code)] true :: itemsAfter 0 rest

def items (pattern : Text) : List Item :=
  itemsAfter 0 pattern

/-- Whether a symbol is what an item asks for. -/
def Item.accepts (symbol : Symbol) : Item → Bool
  | anything => true
  | anySymbol => true
  | set ranges holds =>
      (ranges.any fun range => decide (range.1 ≤ symbol.code) && decide (symbol.code ≤ range.2)) == holds

/-- Whether a test holds of a text or of some rest of it. -/
def anyRest (test : Text → Bool) : Text → Bool
  | [] => test []
  | symbol :: rest => test (symbol :: rest) || anyRest test rest

/-- Whether a whole text is what the items ask for. -/
def covers : List Item → Text → Bool
  | [], text => text.isEmpty
  | .anything :: items, text => anyRest (covers items) text
  | item :: items, text =>
      match text with
      | [] => false
      | symbol :: rest => item.accepts symbol && covers items rest

/-- Whether a whole text matches a pattern. -/
def fits (pattern text : Text) : Bool :=
  covers (items pattern) text

/-- Whether a pattern has a symbol that does not stand for itself. -/
def isWild (pattern : Text) : Bool :=
  pattern.any fun symbol => symbol.isOneOf "*?["

end AccessorLint.Wildcard
