import AccessorLint.Text.Class
import AccessorLint.Text.Folding
set_option autoImplicit false

/-!
Regular expressions: what they are made of.
-/

namespace AccessorLint.Pattern

/-- A kind of characters that an escape names. -/
inductive Kind where
  | digit
  | word
  | blank
deriving DecidableEq, Repr

def Kind.holds : Kind → Symbol → Bool
  | digit => Symbol.isDecimal
  | word => Symbol.isWord
  | blank => Symbol.isBlank

/-- A member of a set of symbols. -/
inductive Member where
  /-- The code points from one to another. -/
  | range (first last : Nat)
  /-- The symbols of a kind, or all others. -/
  | kind (named : Kind) (holds : Bool)
deriving DecidableEq, Repr

/-- What one symbol of the text has to be. -/
inductive Class where
  /-- Any symbol but a newline. -/
  | any
  /-- A symbol that is in the set, or one that is not. -/
  | set (members : List Member) (holds : Bool)
deriving DecidableEq, Repr

/-- A condition on a place between two symbols. -/
inductive Anchor where
  | textStart
  /-- The end of the text, or before a newline that ends it. -/
  | lineEnd
  | textEnd
  /-- The edge of a word, or any other place. -/
  | wordEdge (holds : Bool)
deriving DecidableEq, Repr

/-- How a repetition chooses the number of its turns. -/
inductive Greed where
  /-- As many as possible, fewer if the rest asks for it. -/
  | greedy
  /-- As few as possible, more if the rest asks for it. -/
  | lazy
  /-- As many as possible, whatever the rest asks for. -/
  | possessive
deriving DecidableEq, Repr

/-- A regular expression. -/
inductive Expr where
  | empty
  | one (symbols : Class)
  | anchor (anchor : Anchor)
  | sequence (first second : Expr)
  | choice (first second : Expr)
  | repetition (item : Expr) (least : Nat) (most : Option Nat) (greed : Greed)
deriving DecidableEq, Repr

/-- A regular expression with its one option. -/
structure Regex where
  expr : Expr
  ignoresCase : Bool
deriving DecidableEq, Repr

end AccessorLint.Pattern
