import Mathlib
set_option autoImplicit false

/-!
Lists that correspond, stable sorting, and computations that may fail.
-/

namespace AccessorLint

/-! ### Lists that correspond -/

theorem exists_of_mem_left {α β : Type} {relation : α → β → Prop} {left : List α} {right : List β}
    (each : List.Forall₂ relation left right) {a : α} (member : a ∈ left) : ∃ b ∈ right, relation a b := by
  induction each with
  | nil => cases member
  | cons here _ ih =>
      rcases List.mem_cons.mp member with rfl | later
      · exact ⟨_, List.mem_cons_self .., here⟩
      · obtain ⟨b, inRight, there⟩ := ih later
        exact ⟨b, List.mem_cons_of_mem _ inRight, there⟩

theorem exists_of_mem_right {α β : Type} {relation : α → β → Prop} {left : List α} {right : List β}
    (each : List.Forall₂ relation left right) {b : β} (member : b ∈ right) : ∃ a ∈ left, relation a b := by
  have flipped : List.Forall₂ (flip relation) right left := List.Forall₂.flip each
  exact exists_of_mem_left flipped member

theorem forall₂_compose {α β γ : Type} {first : α → β → Prop} {second : β → γ → Prop} {both : α → γ → Prop}
    {left : List α} {middle : List β} {right : List γ}
    (compose : ∀ a b c, a ∈ left → first a b → second b c → both a c)
    (before : List.Forall₂ first left middle) (after : List.Forall₂ second middle right) :
    List.Forall₂ both left right := by
  induction before generalizing right with
  | nil =>
      cases after
      exact .nil
  | cons here _ ih =>
      cases after with
      | cons there rest =>
          exact .cons (compose _ _ _ (List.mem_cons_self ..) here there)
            (ih (fun a b c member => compose a b c (List.mem_cons_of_mem _ member)) rest)

/-! ### Sorting -/

/-- A sort that is stable leaves items that it cannot tell apart in their order. -/
theorem mergeSort_filter {α : Type} {comesBefore : α → α → Bool} {chosen : α → Bool}
    (trans : ∀ first second third, comesBefore first second = true → comesBefore second third = true →
      comesBefore first third = true)
    (total : ∀ left right, (comesBefore left right || comesBefore right left) = true)
    (tied : ∀ left right, chosen left = true → chosen right = true → comesBefore left right = true) (items : List α) :
    (items.mergeSort comesBefore).filter chosen = items.filter chosen := by
  have ties : (items.filter chosen).Pairwise fun left right => comesBefore left right = true := by
    apply List.pairwise_of_forall_mem_list
    intro left isLeft right isRight
    exact tied left right (List.mem_filter.mp isLeft).2 (List.mem_filter.mp isRight).2
  have filtered := (List.sublist_mergeSort trans total ties List.filter_sublist).filter chosen
  rw [List.filter_filter] at filtered
  simp only [Bool.and_self] at filtered
  exact (filtered.eq_of_length ((List.mergeSort_perm items comesBefore).filter chosen).length_eq.symm).symm

/-! ### Results -/

section

variable {ε ζ α β : Type}

theorem eq_ok_of_toOption {result : Except ε α} {value : α} (succeeds : result.toOption = some value) :
    result = .ok value := by
  cases result with
  | error reason => cases succeeds
  | ok found => rw [Option.some.inj succeeds]

theorem bind_eq_ok {first : Except ε α} {next : α → Except ε β} {result : β}
    (succeeds : (first >>= next) = .ok result) : ∃ value, first = .ok value ∧ next value = .ok result := by
  cases first with
  | error error => cases succeeds
  | ok value => exact ⟨value, rfl, succeeds⟩

theorem bind_eq_ok_iff {first : Except ε α} {next : α → Except ε β} {result : β} :
    (first >>= next) = .ok result ↔ ∃ value, first = .ok value ∧ next value = .ok result := by
  refine ⟨bind_eq_ok, ?_⟩
  rintro ⟨value, rfl, succeeds⟩
  exact succeeds

theorem mapError_eq_ok_iff {change : ε → ζ} {result : Except ε α} {value : α} :
    result.mapError change = .ok value ↔ result = .ok value := by
  cases result <;> simp [Except.mapError]

theorem mapM_eq_ok_iff {apply : α → Except ε β} {list : List α} {found : List β} :
    list.mapM apply = .ok found ↔ List.Forall₂ (fun value result => apply value = .ok result) list found := by
  induction list generalizing found with
  | nil =>
      rw [List.mapM_nil, List.forall₂_nil_left_iff]
      exact ⟨fun same => (Except.ok.inj same).symm, fun same => congrArg Except.ok same.symm⟩
  | cons first rest ih =>
      simp only [List.mapM_cons, bind_eq_ok_iff, List.forall₂_cons_left_iff, ← ih]
      constructor
      · rintro ⟨here, hereFound, others, othersFound, finish⟩
        exact ⟨here, others, hereFound, othersFound, (Except.ok.inj finish).symm⟩
      · rintro ⟨here, others, hereFound, othersFound, rfl⟩
        exact ⟨here, hereFound, others, othersFound, rfl⟩

theorem exists_of_mapM {apply : α → Except ε β} {list : List α} {found : List β} (mapped : list.mapM apply = .ok found)
    {value : α} (member : value ∈ list) : ∃ result ∈ found, apply value = .ok result :=
  exists_of_mem_left (mapM_eq_ok_iff.mp mapped) member

theorem mapM_ok {apply : α → Except ε β} {list : List α} (each : ∀ value ∈ list, ∃ result, apply value = .ok result) :
    ∃ found, list.mapM apply = .ok found ∧
      List.Forall₂ (fun value result => apply value = .ok result) list found := by
  induction list with
  | nil => exact ⟨[], rfl, .nil⟩
  | cons first rest ih =>
      obtain ⟨here, hereFound⟩ := each first List.mem_cons_self
      obtain ⟨others, -, later⟩ := ih fun value member => each value (List.mem_cons_of_mem _ member)
      exact ⟨here :: others, mapM_eq_ok_iff.mpr (.cons hereFound later), .cons hereFound later⟩

theorem mapM_error {apply : α → Except ε β} {list : List α} {value : α} (member : value ∈ list)
    (fails : ∃ error, apply value = .error error) : ∃ error, list.mapM apply = .error error := by
  cases mapped : list.mapM apply with
  | error error => exact ⟨error, rfl⟩
  | ok found =>
      obtain ⟨result, -, succeeds⟩ := exists_of_mapM mapped member
      obtain ⟨error, failed⟩ := fails
      rw [failed] at succeeds
      cases succeeds

end

end AccessorLint
