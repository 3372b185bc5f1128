import AccessorLint.Text.Lines
set_option autoImplicit false

/-!
Lines and columns.  Both are counted from one; offsets are counted from zero.
-/

namespace AccessorLint.Source

/-- The offsets at which the lines of a text start. -/
def lineStarts (text : Text) : List Nat :=
  0 :: go 0 text
where
  /-- The starts of the lines after the first, for a text that starts at an offset. -/
  go : Nat → Text → List Nat
    | _, [] => []
    | offset, symbol :: rest =>
        if symbol = Symbol.newline then (offset + 1) :: go (offset + 1) rest else go (offset + 1) rest

/-- The line and column of an offset, given the starts of the lines.  The line of an offset is the number of lines
that start at or before it. -/
def position (starts : List Nat) (offset : Nat) : Nat × Nat :=
  let line := starts.countP (· ≤ offset)
  (line, offset - starts.getD (line - 1) 0 + 1)

/-- The line and column of an offset that may be negative.  An offset before the text is on line zero, and its column
is counted from the start of the last line. -/
def signedPosition (starts : List Nat) : Int → Int × Int
  | .ofNat offset => ((position starts offset).1, (position starts offset).2)
  | .negSucc below => (0, .negSucc below - starts.getLastD 0 + 1)

end AccessorLint.Source
