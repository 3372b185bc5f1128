import AccessorLint.Text.Class
set_option autoImplicit false

/-!
Brackets in blanked code: the partner of an opening bracket, and the arguments of a list.
-/

namespace AccessorLint.Source

/-- The number of symbols before the one that brings the depth back to zero, or the length of the code if none does.
The depth counts opening symbols up and closing symbols down. -/
def closingSpan (opening closing : Symbol) : Int → Text → Nat
  | _, [] => 0
  | depth, symbol :: rest =>
      if symbol = opening then 1 + closingSpan opening closing (depth + 1) rest
      else if symbol = closing then
        if depth - 1 = 0 then 0 else 1 + closingSpan opening closing (depth - 1) rest
      else 1 + closingSpan opening closing depth rest

/-- The offset of the symbol that closes the bracket at an offset, or the length of the code if none does. -/
def closingOffset (opening closing : Symbol) (code : Text) (offset : Nat) : Nat :=
  min offset code.length + closingSpan opening closing 0 (code.drop offset)

/-- A count of arguments under way: the depth of brackets, the arguments that a comma has ended, and whether the
argument at hand has content. -/
structure ArgumentCount where
  depth : Int
  ended : Nat
  hasContent : Bool
deriving DecidableEq, Repr

namespace ArgumentCount

/-- Ends the argument at hand.  An argument without content does not count. -/
def close (count : ArgumentCount) : ArgumentCount :=
  { count with ended := count.ended + (if count.hasContent then 1 else 0), hasContent := false }

/-- Reads one symbol.  A comma outside brackets ends an argument. -/
def read (count : ArgumentCount) (symbol : Symbol) : ArgumentCount :=
  if symbol = .glyph ',' && count.depth == 0 then count.close
  else
    let depth :=
      if symbol.isOneOf "([\x7b" then count.depth + 1
      else if symbol.isOneOf ")]\x7d" then count.depth - 1
      else count.depth
    { count with depth := depth, hasContent := count.hasContent || !symbol.isBlank }

end ArgumentCount

/-- The number of arguments in the code of an argument list. -/
def countArguments (code : Text) : Nat :=
  (code.foldl ArgumentCount.read ⟨0, 0, false⟩).close.ended

end AccessorLint.Source
