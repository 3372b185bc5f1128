import AccessorLint.Text.Lines
set_option autoImplicit false

/-!
Edits of a source text.

Corrections do not change a text directly.  They register edits with a buffer, which refuses an edit that would meet
another one; the accepted edits are applied together, from the last to the first, so that none moves the place of
another.
-/

namespace AccessorLint

/-- A wish to replace the symbols between two offsets by a text. -/
structure Edit where
  start : Int
  stop : Int
  text : Text
deriving DecidableEq, Repr

/-- Why an edit is refused. -/
inductive Clobbering where
  /-- The range is not inside the source, which has a length. -/
  | outside (start stop : Int) (length : Nat)
  /-- The range meets the range of an accepted edit. -/
  | overlap (start stop otherStart otherStop : Int)
  /-- Something is inserted here already. -/
  | conflict (offset : Int)
deriving DecidableEq, Repr

namespace Clobbering

def rangeText (start stop : Int) : Text :=
  Text.ofInt start ++ ".." ++ Text.ofInt stop

def message : Clobbering → Text
  | outside start stop length =>
      "Range " ++ rangeText start stop ++ " is outside the source (length " ++ Text.ofNat length ++ ")"
  | overlap start stop otherStart otherStop =>
      "Range " ++ rangeText start stop ++ " overlaps a pending edit at " ++ rangeText otherStart otherStop
  | conflict offset => "Conflicting insertions at offset " ++ Text.ofInt offset

end Clobbering

/-- A source text and the edits accepted for it, in the order of their registration. -/
structure EditBuffer where
  source : Text
  edits : List Edit
deriving DecidableEq, Repr

namespace EditBuffer

def ofSource (source : Text) : EditBuffer :=
  ⟨source, []⟩

/-- How an edit meets an accepted one, if it does. -/
def collision? (edit accepted : Edit) : Option Clobbering :=
  if edit.start < accepted.stop && accepted.start < edit.stop then
    some (.overlap edit.start edit.stop accepted.start accepted.stop)
  else if edit.start = edit.stop && edit.stop = accepted.start && accepted.start = accepted.stop then
    some (.conflict edit.start)
  else none

/-- Registers an edit, or refuses it. -/
def replace (buffer : EditBuffer) (edit : Edit) : Except Clobbering EditBuffer :=
  if !(0 ≤ edit.start && edit.start ≤ edit.stop && edit.stop ≤ buffer.source.length) then
    .error (.outside edit.start edit.stop buffer.source.length)
  else
    match buffer.edits.findSome? fun accepted => collision? edit accepted with
    | some clobbering => .error clobbering
    | none => .ok { buffer with edits := buffer.edits ++ [edit] }

/-- A text with one edit applied. -/
def apply (text : Text) (edit : Edit) : Text :=
  text.take edit.start.toNat ++ edit.text ++ text.drop edit.stop.toNat

/-- The edits from the last start to the first.  Edits with one start stay in the order of registration. -/
def ordered (edits : List Edit) : List Edit :=
  edits.mergeSort fun first second => decide (second.start ≤ first.start)

/-- The source with all edits applied. -/
def process (buffer : EditBuffer) : Text :=
  (ordered buffer.edits).foldl apply buffer.source

end EditBuffer

end AccessorLint
