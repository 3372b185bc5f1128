import AccessorLint.Pattern.Expr
set_option autoImplicit false

/-!
Matching: whether a regular expression occurs in a text.

A search starts from a place in the text and tries the ways in which an expression can match there, the preferred one
first.  What has to match after the expression is given to it as a search of its own, so a way that fails later is
given up for the next one.
-/

namespace AccessorLint.Pattern

/-- A place in a text: how many symbols stand before it, the last of them, and the text after it. -/
structure Place where
  offset : Nat
  previous : Option Symbol
  rest : Text
deriving DecidableEq, Repr

/-- A search from a place.  It finds the place where the first way that succeeds ends. -/
abbrev Search := Place → Option Place

/-! ### Single symbols and conditions -/

def Member.accepts (ignoresCase : Bool) (symbol : Symbol) : Member → Bool
  | .range first last =>
      let codes := if ignoresCase then Text.caseVariants symbol.code else [symbol.code]
      codes.any fun code => decide (first ≤ code) && decide (code ≤ last)
  | .kind named holds => named.holds symbol == holds

def Class.accepts (ignoresCase : Bool) (symbol : Symbol) : Class → Bool
  | any => symbol != .glyph '\n'
  | set members holds => (members.any fun member => member.accepts ignoresCase symbol) == holds

/-- Whether the condition holds at a place.  An empty text has neither edges of words nor other places. -/
def Anchor.holdsAt (place : Place) : Anchor → Bool
  | textStart => place.previous.isNone
  | lineEnd => place.rest.isEmpty || place.rest == [.glyph '\n']
  | textEnd => place.rest.isEmpty
  | wordEdge holds =>
      (place.previous.isSome || !place.rest.isEmpty) &&
        (place.previous.any Symbol.isWord != place.rest.head?.any Symbol.isWord) == holds

/-! ### Repetitions -/

/-- Searches for exactly so many turns of an item. -/
def turns (item : Search → Search) (next : Search) : Nat → Search
  | 0 => next
  | count + 1 => item (turns item next count)

/-- Searches for up to so many turns that each move on, most turns first. -/
def greedyTurns (item : Search → Search) (next : Search) : Nat → Search
  | 0, place => next place
  | count + 1, place =>
      let further : Search := fun moved =>
        if place.offset < moved.offset then greedyTurns item next count moved else none
      match item further place with
      | some found => some found
      | none => next place

/-- Searches for up to so many turns that each move on, fewest turns first. -/
def lazyTurns (item : Search → Search) (next : Search) : Nat → Search
  | 0, place => next place
  | count + 1, place =>
      match next place with
      | some found => some found
      | none =>
          item (fun moved => if place.offset < moved.offset then lazyTurns item next count moved else none) place

/-- The place reached by up to so many turns, each of which takes the first way. -/
def firmTurns (item : Search → Search) : Nat → Place → Place
  | 0, place => place
  | count + 1, place =>
      match item some place with
      | some moved => if place.offset < moved.offset then firmTurns item count moved else place
      | none => place

/-! ### Expressions -/

/-- Searches for an expression and then for what has to come next. -/
def Expr.search (ignoresCase : Bool) : Expr → Search → Search
  | empty, next => next
  | one symbols, next => fun place =>
      match place.rest with
      | symbol :: rest =>
          if symbols.accepts ignoresCase symbol then next ⟨place.offset + 1, some symbol, rest⟩ else none
      | [] => none
  | anchor condition, next => fun place => if condition.holdsAt place then next place else none
  | sequence first second, next => search ignoresCase first (search ignoresCase second next)
  | choice first second, next => fun place =>
      match search ignoresCase first next place with
      | some found => some found
      | none => search ignoresCase second next place
  | repetition item least most greed, next =>
      let more : Search := fun place =>
        let count :=
          match most with
          | some most => min (most - least) place.rest.length
          | none => place.rest.length
        match greed with
        | .greedy => greedyTurns (search ignoresCase item) next count place
        | .lazy => lazyTurns (search ignoresCase item) next count place
        | .possessive => next (firmTurns (search ignoresCase item) count place)
      turns (search ignoresCase item) more least

namespace Regex

def matchesAt (regex : Regex) (place : Place) : Bool :=
  (regex.expr.search regex.ignoresCase some place).isSome

/-- Whether the expression matches from some place on, given what stands before the text. -/
def matchesFrom (regex : Regex) (offset : Nat) (previous : Option Symbol) : Text → Bool
  | [] => regex.matchesAt ⟨offset, previous, []⟩
  | symbol :: rest =>
      regex.matchesAt ⟨offset, previous, symbol :: rest⟩ || matchesFrom regex (offset + 1) (some symbol) rest

/-- Whether the expression matches somewhere in the text. -/
def occursIn (regex : Regex) (text : Text) : Bool :=
  regex.matchesFrom 0 none text

end Regex

end AccessorLint.Pattern
