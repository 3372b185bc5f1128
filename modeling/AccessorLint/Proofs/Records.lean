import Mathlib
import AccessorLint.Proofs.Entries
import AccessorLint.Proofs.Findings
set_option autoImplicit false

/-!
Violations written as records and read back.

A violation has a record exactly if the texts by which it is identified have no stray bytes.  The record gives the
violation back, but for its correction and for optional texts that are empty, which a record does not hold.  Neither
counts for the identity of a violation.
-/

namespace AccessorLint

/-! ### Stray bytes in an identity -/

namespace Text

theorem hasStray_append (left right : Text) : hasStray (left ++ right) = (hasStray left || hasStray right) :=
  List.any_append

theorem hasStray_joined {separator : Text} (clean : hasStray separator = false) (parts : List Text) :
    hasStray (joined separator parts) = parts.any hasStray := by
  induction parts with
  | nil => rfl
  | cons part others ih =>
      cases others with
      | nil => rw [joined_singleton, List.any_cons, List.any_nil, Bool.or_false]
      | cons next others =>
          rw [joined_cons_cons, hasStray_append, hasStray_append, ih, clean, Bool.false_or]
          rfl

theorem hasStray_ofNat (number : Nat) : hasStray (ofNat number) = false := by
  rw [hasStray, ofNat, List.any_map, List.any_eq_false]
  exact fun _ _ => Bool.false_ne_true

theorem hasStray_ofInt (number : Int) : hasStray (ofInt number) = false := by
  cases number with
  | ofNat number => exact hasStray_ofNat number
  | negSucc number => exact hasStray_ofNat (number + 1)

end Text

namespace Violation

/-- Whether none of the texts that identify a violation has stray bytes. -/
structure IsEncodable (violation : Violation) : Prop where
  filePath : violation.filePath.hasStray = false
  ruleId : violation.ruleId.hasStray = false
  subType : ∀ text, violation.subType = some text → text.hasStray = false
  codeHash : ∀ text, violation.codeHash = some text → text.hasStray = false

theorem hasStray_subType (text : Option Text) :
    ((nonempty text).getD "default").hasStray = false ↔ ∀ given, text = some given → given.hasStray = false := by
  rcases text with _ | (_ | ⟨first, rest⟩)
  · exact ⟨fun _ _ impossible => (nomatch impossible), fun _ => rfl⟩
  · exact ⟨fun _ _ same => Option.some.inj same ▸ rfl, fun _ => rfl⟩
  · exact ⟨fun clean _ same => Option.some.inj same ▸ clean, fun clean => clean _ rfl⟩

theorem hasStray_codeHash (text : Option Text) :
    (text.getD []).hasStray = false ↔ ∀ given, text = some given → given.hasStray = false := by
  cases text with
  | none => exact ⟨fun _ _ impossible => (nomatch impossible), fun _ => rfl⟩
  | some given => exact ⟨fun clean _ same => Option.some.inj same ▸ clean, fun clean => clean given rfl⟩

theorem id_isOk (violation : Violation) : violation.id.isOk = true ↔ violation.IsEncodable := by
  rw [id, Text.digest_isOk, Bool.not_eq_true', Text.hasStray_joined rfl]
  simp only [List.any_cons, List.any_nil, Bool.or_false, Bool.or_eq_false_iff, Text.hasStray_ofInt,
    hasStray_subType, hasStray_codeHash]
  constructor
  · rintro ⟨filePath, ruleId, subType, codeHash⟩
    exact ⟨filePath, ruleId, subType, codeHash⟩
  · rintro ⟨filePath, ruleId, subType, codeHash⟩
    exact ⟨filePath, ruleId, subType, codeHash⟩

/-! ### The fields of a record -/

theorem nonempty_eq_iff {text : Option Text} : nonempty text = text ↔ text ≠ some [] := by
  rcases text with _ | (_ | ⟨first, rest⟩) <;> simp [nonempty]

theorem nonempty_idem (text : Option Text) : nonempty (nonempty text) = nonempty text := by
  rcases text with _ | (_ | ⟨first, rest⟩) <;> rfl

/-- The fields that a record with an identity may have, each with its value if it is written. -/
def fields (violation : Violation) (identity : Text) : List (String × Option Value) := [
  ("file_path", some (.text violation.filePath)),
  ("line", some (.int violation.line)),
  ("column", some (.int violation.column)),
  ("severity", some (.text violation.severity.name)),
  ("message", some (.text violation.message)),
  ("rule_id", some (.text violation.ruleId)),
  ("source", some (.text violation.source)),
  ("correctable", some (.bool violation.isCorrectable)),
  ("violation_id", some (.text identity)),
  ("related_lines", violation.relatedLines.map linesValue),
  ("context", (nonempty violation.context).map Value.text),
  ("code_hash", (nonempty violation.codeHash).map Value.text),
  ("sub_type", (nonempty violation.subType).map Value.text),
  ("rule_name", (nonempty violation.ruleName).map Value.text)]

theorem recordWith_eq (violation : Violation) (identity : Text) :
    violation.recordWith identity =
      (violation.fields identity).filterMap fun entry => entry.2.map (field entry.1) := by
  rw [List.filterMap_eq_flatMap_toList]
  simp [recordWith, fields, optionalField, Function.comp_def]

theorem find?_filterMap (entries : List (String × Option Value)) (name : String) :
    Entries.find? (entries.filterMap fun entry => entry.2.map (field entry.1)) name =
      entries.foldr (fun entry found => (if entry.1 = name then entry.2 else none).or found) none := by
  induction entries with
  | nil => rfl
  | cons entry rest ih =>
      obtain ⟨first, value⟩ := entry
      rw [List.foldr_cons, ← ih]
      cases value with
      | none =>
          rw [ite_self]
          rfl
      | some value =>
          rw [List.filterMap_cons_some (by rfl), field, Entries.find?_cons]
          split <;> rfl

theorem find?_recordWith (violation : Violation) (identity : Text) (name : String) :
    (violation.recordWith identity).find? name =
      (violation.fields identity).foldr (fun entry found => (if entry.1 = name then entry.2 else none).or found)
        none := by
  rw [recordWith_eq, find?_filterMap]

/-- A record is that of a violation with its identity. -/
theorem toRecord_eq_ok_iff {violation : Violation} {record : Entries} :
    violation.toRecord = .ok record ↔ ∃ identity, violation.id = .ok identity ∧ record = violation.recordWith identity := by
  rw [toRecord, bind_eq_ok_iff]
  constructor
  · rintro ⟨identity, identified, finish⟩
    exact ⟨identity, identified, (Except.ok.inj finish).symm⟩
  · rintro ⟨identity, identified, rfl⟩
    exact ⟨identity, identified, rfl⟩

theorem exists_record_iff (violation : Violation) :
    (∃ record, violation.toRecord = .ok record) ↔ violation.IsEncodable := by
  simp only [← id_isOk, toRecord_eq_ok_iff]
  cases identified : violation.id with
  | ok identity => exact ⟨fun _ => rfl, fun _ => ⟨_, identity, rfl, rfl⟩⟩
  | error error =>
      constructor
      · rintro ⟨record, identity, impossible, -⟩
        cases impossible
      · intro impossible
        cases impossible

/-! ### Reading back -/

/-- The violation without its correction and without optional texts that are empty. -/
def bare (violation : Violation) : Violation :=
  { violation with
    context := nonempty violation.context
    codeHash := nonempty violation.codeHash
    subType := nonempty violation.subType
    ruleName := nonempty violation.ruleName
    correction := none }

theorem ofRecord_recordWith (violation : Violation) (identity : Text) :
    ofRecord (violation.recordWith identity) = .ok violation.bare := by
  have texts : ∀ text : Option Text, (text.map Value.text).bind textOf? = text := by
    intro text
    cases text <;> rfl
  have lines : ∀ lines : Option (Int × Int), (lines.map linesValue).bind linesOf? = lines := by
    intro lines
    cases lines <;> rfl
  have severity : Severity.ofValue? (.text violation.severity.name) = some violation.severity := by
    cases violation.severity <;> decide
  unfold ofRecord required severityOf
  simp only [find?_recordWith, fields, List.foldr_cons, List.foldr_nil, String.reduceEq, reduceIte, Option.none_or,
    Option.or_none, Option.bind_eq_bind, Option.bind_some, texts, lines, severity]
  rfl

theorem bare_id (violation : Violation) : violation.bare.id = violation.id := by
  have hash : (nonempty violation.codeHash).getD [] = violation.codeHash.getD [] := by
    rcases violation.codeHash with _ | (_ | ⟨first, rest⟩) <;> rfl
  unfold id bare
  dsimp only
  rw [nonempty_idem, hash]

/-- The record of what is read back says no longer that the violation can be corrected, and is the same otherwise. -/
theorem bare_recordWith (violation : Violation) (identity : Text) :
    violation.bare.recordWith identity =
      (violation.recordWith identity).set (.text "correctable") (.bool false) := by
  unfold recordWith field
  simp only [List.cons_append, Entries.set, Scalar.same_name, String.reduceEq, decide_false, decide_true, reduceIte,
    Bool.false_eq_true, optionalField]
  simp only [bare, nonempty_idem]
  rfl

theorem bare_sameAs (violation : Violation) :
    violation.bare.sameAs violation = true ↔
      violation.context ≠ some [] ∧ violation.codeHash ≠ some [] ∧ violation.subType ≠ some [] ∧
        violation.ruleName ≠ some [] := by
  unfold sameAs bare
  rw [beq_iff_eq, Violation.mk.injEq]
  simp only [nonempty_eq_iff, true_and, and_true]

end Violation

/-- A violation has a record exactly if the texts that identify it are free of stray bytes.  The record gives it back, but
for its correction and for optional texts that are empty.  What is read back has the same identity and, but for the mark
that it can be corrected, the same record. -/
theorem record_gives_violation_back (violation : Violation) :
    ((∃ record, violation.toRecord = .ok record) ↔ violation.IsEncodable) ∧
    ∀ record, violation.toRecord = .ok record →
      ∃ read, Violation.ofRecord record = .ok read ∧ read = violation.bare ∧ read.isCorrectable = false ∧
        read.id = violation.id ∧ read.toRecord = .ok (record.set (.text "correctable") (.bool false)) ∧
        (read.sameAs violation = true ↔
          violation.context ≠ some [] ∧ violation.codeHash ≠ some [] ∧ violation.subType ≠ some [] ∧
            violation.ruleName ≠ some []) := by
  refine ⟨violation.exists_record_iff, ?_⟩
  intro record recorded
  obtain ⟨identity, identified, rfl⟩ := Violation.toRecord_eq_ok_iff.mp recorded
  refine ⟨violation.bare, violation.ofRecord_recordWith identity, rfl, rfl, violation.bare_id, ?_,
    violation.bare_sameAs⟩
  rw [Violation.toRecord_eq_ok_iff, violation.bare_id]
  exact ⟨identity, identified, (violation.bare_recordWith identity).symm⟩

end AccessorLint
