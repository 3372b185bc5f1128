import Mathlib
import AccessorLint.Naming.Patterns
import AccessorLint.Proofs.Edits
import AccessorLint.Proofs.Header
set_option autoImplicit false

/-!
Renaming accessors in a text.

A correction takes the start of an accessor's name away and marks the rest in one of three ways.  It renames a whole
word, so renamings at places that lie apart are steps that can be made one after the other.
-/

namespace AccessorLint.Naming

open AccessorLint.Source (IsIdentifier nameLength)

/-! ### Old and new names -/

/-- How a correction renames a method. -/
inductive Renaming : Text → Text → Prop where
  | getter (subject : Text) : Renaming (getStart ++ subject) (subject ++ "_for")
  | setter (subject : Text) : Renaming (setStart ++ subject) (subject ++ "=")
  | apiSetter (subject : Text) : Renaming (setStart ++ subject) ("create_" ++ subject)

theorem subject_getter (rest : Text) : subject (getStart ++ rest) = rest := by
  rw [subject, Text.startsWith, List.isPrefixOf_iff_prefix.mpr (List.prefix_append _ _), if_pos rfl, List.drop_left]

theorem subject_setter (rest : Text) : subject (setStart ++ rest) = rest := by
  have other : Text.startsWith (setStart ++ rest) getStart = false := rfl
  rw [subject, other, if_neg Bool.false_ne_true, Text.startsWith,
    List.isPrefixOf_iff_prefix.mpr (List.prefix_append _ _), if_pos rfl, List.drop_left]

/-- What a correction takes is the new name of the accessor. -/
theorem renaming_of_suggestion {patterns : PatternSets} {method : Method} {newName : Text}
    (first : (suggestions method.name (classify patterns method)).head? = some newName) :
    Renaming method.name newName := by
  unfold classify at first
  split at first
  · rename_i getter
    obtain ⟨rest, nameEq⟩ := List.isPrefixOf_iff_prefix.mp getter
    rw [← nameEq] at first ⊢
    split_ifs at first <;> cases first
    rw [subject_getter]
    exact .getter rest
  · split at first
    · rename_i setter
      obtain ⟨rest, nameEq⟩ := List.isPrefixOf_iff_prefix.mp setter
      rw [← nameEq] at first ⊢
      split_ifs at first <;> cases first
      · rw [subject_setter]
        exact .apiSetter rest
      · rw [subject_setter]
        exact .setter rest
    · cases first

theorem Renaming.exists_subject {name newName : Text} (renames : Renaming name newName) :
    ∃ start, (start = getStart ∨ start = setStart) ∧ name = start ++ subject name := by
  cases renames with
  | getter rest => exact ⟨getStart, Or.inl rfl, by rw [subject_getter]⟩
  | setter rest => exact ⟨setStart, Or.inr rfl, by rw [subject_setter]⟩
  | apiSetter rest => exact ⟨setStart, Or.inr rfl, by rw [subject_setter]⟩

/-- The name of an accessor that can be renamed is an identifier: it ends without a mark. -/
theorem Renaming.identifier {name newName rest : Text} (renames : Renaming name newName)
    (renamable : canRename name = true) (named : nameLength (name ++ rest) = name.length) : IsIdentifier name := by
  obtain ⟨start, isStart, nameEq⟩ := renames.exists_subject
  obtain ⟨first, others, startEq, isFirst⟩ : ∃ first others, start = first :: others ∧ first.isNameStart = true := by
    rcases isStart with rfl | rfl <;> exact ⟨_, _, rfl, by decide⟩
  rcases Source.wordLength_cases (name ++ rest) with ⟨-, noStart⟩ | ⟨word, below, whole, identifier, stops, -⟩
  · have outside := noStart first (by rw [nameEq, startEq]; rfl)
    rw [isFirst] at outside
    cases outside
  · rw [whole, Source.nameLength_identifier identifier stops] at named
    rcases Source.markLength_cases below with none | ⟨mark, later, belowEq, isMark, one⟩
    · have same := List.append_inj whole (by omega)
      rw [same.1]
      exact identifier
    · -- then the mark would end the subject
      exfalso
      rw [belowEq, ← List.singleton_append, ← List.append_assoc] at whole
      obtain ⟨marked, -⟩ := List.append_inj whole (by rw [List.length_append, List.length_singleton]; omega)
      unfold canRename at renamable
      split at renamable
      · rename_i head last
        rw [nameEq] at marked
        obtain ⟨front, subjectEq⟩ := List.getLast?_eq_some_iff.mp last
        rw [subjectEq, ← List.append_assoc] at marked
        obtain ⟨-, sameMark⟩ := List.append_inj' marked rfl
        rw [List.singleton_inj.mp sameMark, isMark, Bool.not_true, Bool.and_false] at renamable
        cases renamable
      · cases renamable

/-- The name of an accessor that can be renamed is ordinary. -/
theorem Renaming.ordinary {name newName rest : Text} (renames : Renaming name newName)
    (renamable : canRename name = true) (named : nameLength (name ++ rest) = name.length) :
    Source.Ordinary name := by
  refine .word (renames.identifier renamable named) ?_
  rintro rfl
  cases renames

/-! ### Places -/

/-- A place where an edit renames an accessor: what stands to the left of the name, the name, which is a whole word,
and what stands to the right. -/
structure Site (text : Text) (edit : Edit) (left name right : Text) : Prop where
  textEq : text = left ++ (name ++ right)
  start : edit.start = left.length
  stop : edit.stop = left.length + name.length
  renames : Renaming name edit.text
  identifier : IsIdentifier name
  before : ∀ last ∈ left.getLast?, last.isWord = false
  after : ∀ next ∈ right.head?, next.isWord = false

theorem Site.applied {text left name right : Text} {edit : Edit} (site : Site text edit left name right) :
    EditBuffer.apply text edit = left ++ (edit.text ++ right) := by
  have stop : edit.stop.toNat = (left ++ name).length := by
    rw [site.stop, List.length_append]
    rfl
  rw [EditBuffer.apply, stop, site.start, site.textEq, Int.toNat_natCast, List.take_left, ← List.append_assoc left name,
    List.drop_left, List.append_assoc]

/-- A place stays one when an edit behind it is applied. -/
theorem Site.of_later {text left name right : Text} {edit later : Edit} (site : Site text edit left name right)
    (apart : edit.stop < later.start) (nonempty : later.start < later.stop) (within : later.stop ≤ text.length) :
    ∃ further, Site (EditBuffer.apply text later) edit left name further := by
  have positive : 0 ≤ later.start := by
    have stop := site.stop
    omega
  obtain ⟨front, middle, back, parts, -, start, -, applied⟩ := EditBuffer.exists_parts positive nonempty within
  have regrouped : (left ++ name) ++ right = front ++ (middle ++ back) := by
    rw [List.append_assoc, ← site.textEq, parts]
  have longer : (left ++ name).length < front.length := by
    have stop := site.stop
    rw [List.length_append]
    omega
  rcases List.append_eq_append_iff.mp regrouped with ⟨between, frontEq, rightEq⟩ | ⟨more, leftEq, -⟩
  · refine ⟨between ++ (later.text ++ back), ?_, site.start, site.stop, site.renames, site.identifier, site.before, ?_⟩
    · rw [applied, frontEq, List.append_assoc, List.append_assoc]
    · intro next member
      have between_ne_nil : between ≠ [] := by
        rintro rfl
        rw [frontEq, List.append_nil] at longer
        omega
      apply site.after next
      rw [List.head?_append_of_ne_nil _ between_ne_nil] at member
      rw [rightEq, List.head?_append_of_ne_nil _ between_ne_nil]
      exact member
  · rw [leftEq, List.length_append] at longer
    omega

/-! ### Steps -/

/-- A text after so many renamings, one after the other. -/
inductive Renamed : Nat → Text → Text → Prop where
  | refl (text : Text) : Renamed 0 text text
  | step {count : Nat} {text out left name right : Text} {edit : Edit} (site : Site text edit left name right)
      (later : Renamed count (EditBuffer.apply text edit) out) : Renamed (count + 1) text out

theorem Renamed.trans {first second : Nat} {text middle out : Text} (before : Renamed first text middle)
    (after : Renamed second middle out) : Renamed (first + second) text out := by
  induction before with
  | refl => rwa [Nat.zero_add]
  | step site later ih =>
      rw [Nat.add_right_comm]
      exact .step site (ih after)

/-- Edits that rename at places that lie apart are as many steps. -/
theorem renamed_process {edits : List Edit} {text : Text} (ascending : Ascending text.length edits)
    (sites : ∀ edit ∈ edits, ∃ left name right, Site text edit left name right) :
    Renamed edits.length text (EditBuffer.process ⟨text, edits⟩) := by
  induction edits using List.reverseRecOn generalizing text with
  | nil =>
      have unchanged : EditBuffer.process ⟨text, []⟩ = text := by simp [EditBuffer.process, EditBuffer.ordered]
      rw [unchanged]
      exact .refl text
  | append_singleton edits edit ih =>
      obtain ⟨left, name, right, site⟩ := sites edit (by simp)
      obtain ⟨-, nonempty, within⟩ := ascending.proper edit (by simp)
      rw [EditBuffer.process_concat ascending, List.length_append, List.length_singleton]
      refine .step site (ih (EditBuffer.ascending_init ascending) ?_)
      intro other member
      obtain ⟨otherLeft, otherName, otherRight, otherSite⟩ := sites other (by simp [member])
      have apart := (List.pairwise_append.mp ascending.apart).2.2 other member edit (by simp)
      obtain ⟨further, kept⟩ := otherSite.of_later apart nonempty within
      exact ⟨otherLeft, otherName, further, kept⟩

end AccessorLint.Naming
