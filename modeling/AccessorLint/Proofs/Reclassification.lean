import Mathlib
import AccessorLint.Proofs.Locality
import AccessorLint.Proofs.Renaming
set_option autoImplicit false

/-!
How a method is classified under the name that a correction gives it.

A correction takes one `get_` or `set_` away.  The rest may start like an accessor itself, or become one by the `_for`
that a getter gets, and then the method is flagged again, as the accessor that its new name makes of it.
-/

namespace AccessorLint.Naming

/-! ### What is flagged -/

/-- Whether a getter of this text and path is left alone. -/
def PatternSets.spares (patterns : PatternSets) (method : Method) : Bool :=
  patterns.sendsGetRequest method.sourceText ||
    patterns.isApiFile method.filePath && patterns.callsGet method.sourceText

section Classification

variable {patterns : PatternSets} {method : Method}

theorem not_getter_of_setter {name : Text} (setter : name.startsWith setStart = true) :
    name.startsWith getStart = false := by
  obtain ⟨rest, rfl⟩ := List.isPrefixOf_iff_prefix.mp setter
  rfl

theorem flagged_iff : classify patterns method ≠ .skip ↔
    method.argumentCount ≠ 0 ∧
      (method.name.startsWith getStart = true ∧ patterns.spares method = false ∨
        method.name.startsWith setStart = true) := by
  unfold classify PatternSets.spares
  by_cases getter : method.name.startsWith getStart = true
  · have noSetter : ¬method.name.startsWith setStart = true := by
      intro setter
      rw [not_getter_of_setter setter] at getter
      cases getter
    rw [if_pos getter]
    split_ifs with noArguments sends wraps
    · simp [noArguments]
    · simp [sends, noSetter]
    · simp [wraps, noSetter]
    · simp [noArguments, getter, sends, wraps]
  · rw [if_neg getter]
    split_ifs with setter noArguments api
    · simp [noArguments]
    · simp [noArguments, setter]
    · simp [noArguments, setter]
    · simp [getter, setter]

theorem spares_of_getter (outcome : classify patterns method = .getter) : patterns.spares method = false := by
  have flagged : classify patterns method ≠ .skip := by simp [outcome]
  rcases (flagged_iff.mp flagged).2 with ⟨-, unspared⟩ | setter
  · exact unspared
  · rw [classify, not_getter_of_setter setter, if_neg Bool.false_ne_true, if_pos setter] at outcome
    split_ifs at outcome

theorem isApiFile_of_setter (outcome : classify patterns method = .setter) :
    patterns.isApiFile method.filePath = false := by
  unfold classify at outcome
  split_ifs at outcome with getter _ _ _ setter noArguments api
  exact Bool.eq_false_iff.mpr api

end Classification

/-! ### New names -/

/-- A text before an underscore starts with a word and an underscore, or it is the word. -/
theorem startsWith_underscore {word : Text} (absent : .glyph '_' ∉ word) (text below : Text) :
    Text.startsWith (text ++ .glyph '_' :: below) (word ++ "_") = true ↔
      text = word ∨ Text.startsWith text (word ++ "_") = true := by
  unfold Text.startsWith
  induction word generalizing text with
  | nil =>
      cases text with
      | nil => simp [Text.ofString]
      | cons first others => simp [Text.ofString]
  | cons symbol rest ih =>
      rw [List.mem_cons, not_or] at absent
      cases text with
      | nil => simp [Ne.symm absent.1]
      | cons first others =>
          rw [List.cons_append, List.cons_append, List.isPrefixOf_cons_cons, List.isPrefixOf_cons_cons, Bool.and_eq_true,
            Bool.and_eq_true, ih absent.2, List.cons.injEq, beq_iff_eq]
          constructor
          · rintro ⟨same, whole | starts⟩
            · exact Or.inl ⟨same.symm, whole⟩
            · exact Or.inr ⟨same, starts⟩
          · rintro (⟨same, whole⟩ | ⟨same, starts⟩)
            · exact ⟨same.symm, Or.inl whole⟩
            · exact ⟨same, Or.inr starts⟩

/-- Whether the name that a method takes after an outcome starts like that of an accessor that is flagged. -/
def Restarts (patterns : PatternSets) (method : Method) : Outcome → Prop
  | .getter => ∃ word : Text, (word = "get" ∨ word = "set") ∧
      (subject method.name = word ∨ (subject method.name).startsWith (word ++ "_") = true)
  | .setter => (subject method.name).startsWith setStart = true ∨
      (subject method.name).startsWith getStart = true ∧ patterns.sendsGetRequest method.sourceText = false
  | _ => False

variable {patterns : PatternSets} {method : Method}

theorem getter_flagged_again (outcome : classify patterns method = .getter) :
    classify patterns { method with name := subject method.name ++ "_for" } ≠ .skip ↔
      Restarts patterns method .getter := by
  have unspared := spares_of_getter outcome
  have counted := (flagged_iff.mp (show classify patterns method ≠ .skip by simp [outcome])).1
  have starts (word : Text) (absent : .glyph '_' ∉ word) :
      Text.startsWith (subject method.name ++ "_for") (word ++ "_") = true ↔
        subject method.name = word ∨ (subject method.name).startsWith (word ++ "_") = true :=
    startsWith_underscore absent _ "for"
  rw [flagged_iff]
  constructor
  · rintro ⟨-, ⟨getter, -⟩ | setter⟩
    · exact ⟨"get", Or.inl rfl, (starts "get" (by decide)).mp getter⟩
    · exact ⟨"set", Or.inr rfl, (starts "set" (by decide)).mp setter⟩
  · rintro ⟨word, rfl | rfl, begins⟩
    · exact ⟨counted, Or.inl ⟨(starts "get" (by decide)).mpr begins, unspared⟩⟩
    · exact ⟨counted, Or.inr ((starts "set" (by decide)).mpr begins)⟩

theorem setter_flagged_again (outcome : classify patterns method = .setter) :
    classify patterns { method with name := subject method.name ++ "=" } ≠ .skip ↔
      Restarts patterns method .setter := by
  have counted := (flagged_iff.mp (show classify patterns method ≠ .skip by simp [outcome])).1
  have starts (start : Text) (absent : .glyph '=' ∉ start) :
      Text.startsWith (subject method.name ++ "=") start = (subject method.name).startsWith start :=
    Source.startsWith_stop absent _ []
  have spared : patterns.spares method = patterns.sendsGetRequest method.sourceText := by
    rw [PatternSets.spares, isApiFile_of_setter outcome, Bool.false_and, Bool.or_false]
  rw [flagged_iff]
  dsimp only
  rw [starts getStart (by decide), starts setStart (by decide)]
  constructor
  · rintro ⟨-, ⟨getter, unspared⟩ | setter⟩
    · exact Or.inr ⟨getter, spared ▸ unspared⟩
    · exact Or.inl setter
  · rintro (setter | ⟨getter, silent⟩)
    · exact ⟨counted, Or.inr setter⟩
    · exact ⟨counted, Or.inl ⟨getter, spared.trans silent⟩⟩

theorem apiSetter_not_flagged_again (patterns : PatternSets) (method : Method) :
    ¬classify patterns { method with name := "create_" ++ subject method.name } ≠ .skip := by
  rw [flagged_iff]
  rintro ⟨-, ⟨getter, -⟩ | setter⟩
  · cases getter
  · cases setter

end AccessorLint.Naming

namespace AccessorLint

open Naming (Method PatternSets Restarts canRename classify suggestions)

/-- A flagged method has a new name to take, and with that name it is flagged again exactly if the name starts like an
accessor: after `get_` is gone, if the rest is `get` or `set` or goes on with `_` after one of them; after `set_` is
gone, if the rest starts with `set_`, or with `get_` in a text that sends no request; in an API client never. -/
theorem flagged_again_exactly_if_restarting (patterns : PatternSets) (method : Method)
    (flagged : classify patterns method ≠ .skip) :
    ∃ newName, (suggestions method.name (classify patterns method)).head? = some newName ∧
      (classify patterns { method with name := newName } ≠ .skip ↔
        Restarts patterns method (classify patterns method)) := by
  cases outcome : classify patterns method with
  | skip => exact absurd outcome flagged
  | getter => exact ⟨_, rfl, Naming.getter_flagged_again outcome⟩
  | setter => exact ⟨_, rfl, Naming.setter_flagged_again outcome⟩
  | apiSetter => exact ⟨_, rfl, iff_of_false (Naming.apiSetter_not_flagged_again patterns method) id⟩

/-- What is left may start with the letters of an accessor. -/
theorem getter_of_getter_settles :
    let method : Method := ⟨"get_getter", 1, "def get_getter(id)\nend", "a.rb"⟩
    classify .default method ≠ .skip ∧ classify .default { method with name := "getter_for" } = .skip := by
  intro method
  have outcome : classify .default method = .getter := by decide +kernel
  have flagged : classify .default method ≠ .skip := by simp [outcome]
  obtain ⟨newName, first, again⟩ := flagged_again_exactly_if_restarting .default method flagged
  rw [outcome] at first again
  cases first
  refine ⟨flagged, not_not.mp (mt again.mp ?_)⟩
  rintro ⟨word, rfl | rfl, starts⟩ <;> revert starts <;> decide

/-- A getter of a getter becomes a getter. -/
theorem stacked_getter_flagged_again :
    let method : Method := ⟨"get_get_user", 1, "def get_get_user(id)\nend", "a.rb"⟩
    classify .default method = .getter ∧ canRename method.name = true ∧
      (suggestions method.name .getter).head? = some (Text.ofString "get_user_for") ∧
      classify .default { method with name := "get_user_for" } = .getter := by
  decide +kernel

end AccessorLint
