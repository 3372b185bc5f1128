import AccessorLint.Text.Case
set_option autoImplicit false

/-!
Letters with case ignored.  Two code points count as one if they have the same small letter, or small letters that
look back to a common capital.
-/

namespace AccessorLint.Text

/-- Whether a run of the lowering table passes through a code point. -/
def inRun (run : Nat × Nat × Nat × Int) (code : Nat) : Bool :=
  decide (run.1 ≤ code) && decide (code ≤ run.2.1) && (code - run.1) % run.2.2.1 == 0

/-- The code point of the small letter. -/
def lowered (code : Nat) : Nat :=
  match lowering.find? fun run => inRun run code with
  | some run => (code + run.2.2.2).toNat
  | none => code

/-- The small letters that count as one with a small letter. -/
def smallVariants (small : Nat) : List Nat :=
  (lookalikes.find? fun group => group.contains small).getD [small]

/-- Every code point that counts as one with a code point. -/
def caseVariants (code : Nat) : List Nat :=
  let smalls := smallVariants (lowered code)
  smalls ++ smalls.flatMap fun (small : Nat) =>
    lowering.filterMap fun run =>
      let capital := ((small : Int) - run.2.2.2).toNat
      if inRun run capital then some capital else none

end AccessorLint.Text
