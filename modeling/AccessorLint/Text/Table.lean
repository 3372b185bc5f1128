set_option autoImplicit false

/-!
Sets of code points, written as tables of runs.

A property of characters is fixed by a standard and not by a rule one could state in a line, so it is kept as
data: the runs of code points that have it, in increasing order.  Looking a code point up stops at the first run
that lies beyond it.
-/

namespace AccessorLint.Text

/-- Runs `(first, last)` of code points, in increasing order. -/
abbrev Table := List (Nat × Nat)

/-- Whether a run of the table holds the code point. -/
def Table.holds : Table → Nat → Bool
  | [], _ => false
  | (first, last) :: later, code =>
      if code < first then false else decide (code ≤ last) || Table.holds later code

/-- Runs `(first, last, step)` of code points that are `step` apart, in increasing order. -/
abbrev StepTable := List (Nat × Nat × Nat)

/-- Whether a run of the table passes through the code point. -/
def StepTable.holds : StepTable → Nat → Bool
  | [], _ => false
  | (first, last, step) :: later, code =>
      if code < first then false
      else (decide (code ≤ last) && (code - first) % step == 0) || StepTable.holds later code

end AccessorLint.Text
