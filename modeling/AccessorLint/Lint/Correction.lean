import AccessorLint.Lint.Rule
import AccessorLint.Journal.Notice
set_option autoImplicit false

/-!
Checking and correcting a text.

A text is checked by all enabled rules; a rule that fails tells nothing about it.  Correction goes in passes: each
pass checks the text anew and applies the corrections of all violations that it finds.  A correction that meets
another one waits for the next pass.  Passes end when nothing is left to correct or nothing changes, and after ten at
the latest.
-/

namespace AccessorLint

/-! ### Checking -/

/-- What rules found in a file, and what there is to tell. -/
structure Checked where
  violations : List Violation
  notices : List Notice
deriving DecidableEq, Repr

/-- What a rule finds in a file.  A rule that is not enabled finds nothing. -/
def Rule.run (rule : Rule) (file : SourceFile) (selected : List Int) : Checked :=
  if !rule.enabled then ⟨[], []⟩
  else
    match rule.check file selected with
    | .ok violations => ⟨violations, []⟩
    | .error reason =>
        ⟨[], [.warning ("Rule " ++ rule.identifier ++ " failed on " ++ file.path ++ ": " ++ reason)]⟩

/-- What all rules find in a file. -/
def check (rules : List Rule) (file : SourceFile) (selected : List Int) : Checked :=
  let runs := rules.map fun rule => rule.run file selected
  ⟨runs.flatMap Checked.violations, runs.flatMap Checked.notices⟩

/-! ### A pass -/

/-- Edits that have been registered: the buffer that holds them, how many violations they correct, and what there is
to tell. -/
structure Registered where
  buffer : EditBuffer
  applied : Nat
  notices : List Notice
deriving DecidableEq, Repr

/-- Registers edits up to the first that is refused. -/
def EditBuffer.register (buffer : EditBuffer) : List Edit → EditBuffer × Option Clobbering
  | [] => (buffer, none)
  | edit :: rest =>
      match buffer.replace edit with
      | .ok longer => longer.register rest
      | .error clobbering => (buffer, some clobbering)

/-- Registers the correction of a violation, unless it meets another. -/
def Registered.add (registered : Registered) (violation : Violation) : Registered :=
  match violation.correction with
  | none => registered
  | some edits =>
      match registered.buffer.register edits with
      | (buffer, none) => { registered with buffer := buffer, applied := registered.applied + 1 }
      | (buffer, some clobbering) =>
          let notice := Notice.debug ("Deferred correction at " ++ violation.place ++ ": " ++ clobbering.message)
          { registered with buffer := buffer, notices := registered.notices ++ [notice] }

/-- Registers the corrections of violations of a text, one after the other. -/
def registerAll (content : Text) (violations : List Violation) : Registered :=
  violations.foldl Registered.add ⟨.ofSource content, 0, []⟩

/-! ### Correcting -/

/-- A text after correction, the violations left in it, how many were corrected, and what there is to tell. -/
structure Corrected where
  content : Text
  remaining : List Violation
  count : Nat
  notices : List Notice
deriving DecidableEq, Repr

/-- The number of passes after which correction gives up. -/
def maxPasses : Nat := 10

/-- The notice that correction gave up. -/
def unfinishedNotice (path : Text) : Notice :=
  .warning ("Autocorrect did not converge after " ++ Text.ofNat maxPasses ++ " passes: " ++ path)

def passNotice (path : Text) (applied : Nat) (passesLeft : Nat) : Notice :=
  .debug ("Autocorrect pass " ++ Text.ofNat (maxPasses - passesLeft) ++ " on " ++ path ++ ": " ++
    Text.ofNat applied ++ " corrections")

/-- Corrects a text in at most so many passes, after so many corrections. -/
def correctFrom (rules : List Rule) (path : Text) : Nat → Nat → Text → Corrected
  | 0, count, content =>
      let checked := check rules (.ofContent path content) []
      ⟨content, checked.violations, count, unfinishedNotice path :: checked.notices⟩
  | passes + 1, count, content =>
      let checked := check rules (.ofContent path content) []
      let registered := registerAll content (checked.violations.filter Violation.isCorrectable)
      let notices := checked.notices ++ registered.notices
      if registered.applied = 0 then ⟨content, checked.violations, count, notices⟩
      else
        let next := registered.buffer.process
        let notices := notices ++ [passNotice path registered.applied passes]
        if next = content then ⟨content, checked.violations, count + registered.applied, notices⟩
        else
          let corrected := correctFrom rules path passes (count + registered.applied) next
          { corrected with notices := notices ++ corrected.notices }

def correct (rules : List Rule) (path content : Text) : Corrected :=
  correctFrom rules path maxPasses 0 content

end AccessorLint
