import Mathlib
import AccessorLint.Command.Run
import AccessorLint.Proofs.Entries
import AccessorLint.Proofs.FoundViolations
import AccessorLint.Proofs.Settling
set_option autoImplicit false

/-!
What runs report.

A run that has collected violations prints those that are left when they are deduplicated and sorted, as text or as
JSON, and nothing else.  Its exit code tells of errors among them, if the settings want errors to make runs fail.  As
JSON, a violation in a file whose path has a stray byte cannot be told, and the run fails.
-/

namespace AccessorLint

/-! ### What is printed -/

namespace Session

end Session

namespace Run

/-- What a run comes to before it reports. -/
structure Collected where
  root : Path
  settings : Settings
  files : List Text
  found : Findings
  /-- The files that are left. -/
  disk : Disk

/-- Whether a run comes to report something: nobody stops it, it finds its settings and some files, and works on them.
None of this depends on what has been told before. -/
structure Collects (host : Host) (arguments : Arguments) (collected : Collected) : Prop where
  running : host.interrupted = false
  located : projectRoot host.disk arguments.projectRoot = .ok collected.root
  loaded : ∀ session,
    (loadSettings host.readSettings host.disk collected.root arguments.config session).1 = .ok collected.settings
  gathered : ∀ session,
    (collectFiles host.disk collected.root collected.settings arguments.files session).1 = .ok collected.files
  something : collected.files ≠ []
  worked : ∀ session,
    (lint host.schedule host.disk collected.root collected.settings arguments.autocorrect collected.files session).1 =
      .ok (collected.found, collected.disk)

/-- A violation that a run finds has an identity exactly if the path of its file has no stray byte. -/
theorem lint_isEncodable_iff {schedule : List Nat} {disk later : Disk} {root : Path} {settings : Settings}
    {corrects : Bool} {files : List Text} {session : Session} {found : Findings}
    (linted : (lint schedule disk root settings corrects files session).1 = .ok (found, later)) :
    ∀ violation ∈ found.violations, violation.IsEncodable ↔ violation.filePath.hasStray = false := by
  unfold lint at linted
  dsimp only at linted
  split at linted
  · cases linted
  · rename_i engine notices loaded
    have checked := fun (path : Text) (_ : path ∈ files) (content : Text) (selected : List Int) violation =>
      @isEncodable_iff_of_check _ _ _ _ _ loaded (.ofContent path content) selected violation
    obtain rfl : _ = found := congrArg Prod.fst (Except.ok.inj linted)
    split
    · exact Engine.runAll_violations checked .correct schedule _
    · exact Engine.runAll_violations checked (.check fun _ => []) schedule _

namespace Collects

variable {host : Host} {arguments : Arguments} {collected : Collected}

end Collects

/-! ### The two forms of a report -/

def listed (found : Findings) : List Violation :=
  (Reporter.firsts found.violations).mergeSort Reporter.comesBefore

theorem listed_settled (found : Findings) : Reporter.Settled found.violations (listed found) :=
  Reporter.settled_sort_deduplicate found.violations

/-- A violation that is left in the report of a run has a record exactly if the path of its file has no stray byte. -/
theorem Collects.exists_record_iff {host : Host} {arguments : Arguments} {collected : Collected}
    (collects : Collects host arguments collected) {violation : Violation}
    (member : violation ∈ listed collected.found) :
    (∃ entries, violation.toRecord = .ok entries) ↔ violation.filePath.hasStray = false := by
  have found := List.mem_of_find?_eq_some (((listed_settled collected.found).first violation).mp member)
  have worked := collects.worked (.start (.ofName "rblint") false)
  exact violation.exists_record_iff.trans (lint_isEncodable_iff worked violation found)

end Run

/-- What the line of a violation tells: where it is, how serious, what is wrong and by which rule. -/
def Violation.told (violation : Violation) (plain : Bool) : Text :=
  let place := violation.filePath ++ ":" ++ Text.ofInt violation.line ++ ":" ++ Text.ofInt violation.column
  if plain then
    let marker : Text := if violation.correction.isSome then " [Correctable]" else ""
    "[" ++ violation.severity.capitalName ++ "] " ++ place ++ " - " ++ violation.message ++
      " (" ++ violation.ruleId ++ ")" ++ marker
  else place ++ ": " ++ violation.severity.name ++ ": " ++ violation.message ++ " [" ++ violation.ruleId ++ "]"

end AccessorLint
