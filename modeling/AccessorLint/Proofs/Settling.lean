import Mathlib
import AccessorLint.Report.Reporter
import AccessorLint.Proofs.Lists
import AccessorLint.Proofs.Occurrences
set_option autoImplicit false

/-!
What is left of the violations of a report when it is deduplicated and sorted.

The two may be done in either order, and doing them again changes nothing: the violations that are left and their order
are fixed by the violations that were added.  Of those that coincide the first one is left, and violations at one
location stand in the order in which they were added.
-/

namespace AccessorLint

/-! ### Locations -/

theorem Text.le_iff (left right : Text) : left.le right = true ↔ left.map Symbol.code ≤ right.map Symbol.code := by
  rw [← not_lt]
  induction left generalizing right with
  | nil => simp [Text.le]
  | cons first lefts ih =>
      cases right with
      | nil => simp [Text.le]
      | cons second rights =>
          rw [List.map_cons, List.map_cons, List.cons_lt_cons_iff, Text.le]
          split
          · rename_i before
            simp only [true_iff, not_or, not_and]
            exact ⟨by omega, by omega⟩
          · split
            · rename_i after
              simp [after]
            · rw [ih]
              have same : first.code = second.code := by omega
              simp [same]

/-- Where a violation stands in a report: the path of its file by code points, then its line, then its column. -/
def Violation.location (violation : Violation) : List Nat ×ₗ Int ×ₗ Int :=
  toLex (violation.filePath.map Symbol.code, toLex (violation.line, violation.column))

theorem Violation.location_eq_iff {left right : Violation} :
    left.location = right.location ↔
      left.filePath = right.filePath ∧ left.line = right.line ∧ left.column = right.column := by
  have pathInjective : Function.Injective (List.map Symbol.code) :=
    List.map_injective_iff.mpr fun _ _ => Symbol.code_injective
  unfold location
  rw [toLex_inj, Prod.mk.injEq, toLex_inj, Prod.mk.injEq, pathInjective.eq_iff]

namespace Reporter

theorem comesBefore_iff {left right : Violation} :
    comesBefore left right = true ↔ left.location ≤ right.location := by
  unfold comesBefore
  rw [Violation.location, Violation.location, Prod.Lex.toLex_le_toLex, Prod.Lex.toLex_le_toLex]
  dsimp only
  split
  · rename_i path
    rw [path]
    split
    · rename_i line
      simp [line]
    · rename_i line
      simp [line]
  · rename_i path
    have codes : left.filePath.map Symbol.code ≠ right.filePath.map Symbol.code := fun same =>
      path (List.map_injective_iff.mpr (fun _ _ => Symbol.code_injective) same)
    rw [Text.le_iff, le_iff_lt_or_eq]
    simp [codes]

theorem coincide_iff {left right : Violation} :
    coincide left right = true ↔ left.location = right.location ∧ left.ruleId = right.ruleId := by
  simp [coincide, Violation.location_eq_iff, and_assoc]

theorem coincide_self (violation : Violation) : coincide violation violation = true :=
  coincide_iff.mpr ⟨rfl, rfl⟩

theorem coincide_symm (left right : Violation) : coincide left right = coincide right left := by
  rw [Bool.eq_iff_iff, coincide_iff, coincide_iff, eq_comm, @eq_comm _ left.ruleId]

theorem coincide_congr {left right : Violation} (same : coincide left right = true) :
    coincide left = coincide right := by
  funext other
  rw [coincide_iff] at same
  rw [Bool.eq_iff_iff, coincide_iff, coincide_iff, same.1, same.2]

/-! ### Deduplication -/

/-- The first of the violations that coincide with it is left, and no other. -/
theorem mem_firsts {added : List Violation} {violation : Violation} :
    violation ∈ firsts added ↔ added.find? (coincide violation) = some violation := by
  induction added with
  | nil => simp [firsts]
  | cons first rest ih =>
      rw [firsts, List.mem_cons, List.mem_filter, ih, Bool.not_eq_true', List.find?_cons, coincide_symm first]
      cases same : coincide violation first with
      | true => simp [eq_comm]
      | false =>
          have different : violation ≠ first := by
            rintro rfl
            rw [coincide_self] at same
            cases same
          simp [different]

/-- What is left stands in the order in which it was added. -/
theorem firsts_pairwise (added : List Violation) :
    (firsts added).Pairwise fun left right => added.findIdx (coincide left) < added.findIdx (coincide right) := by
  induction added with
  | nil => exact .nil
  | cons first rest ih =>
      rw [firsts, List.pairwise_cons]
      have later : ∀ other ∈ (firsts rest).filter fun other => !coincide first other,
          (first :: rest).findIdx (coincide other) = rest.findIdx (coincide other) + 1 := by
        intro other isOther
        have different := (List.mem_filter.mp isOther).2
        rw [Bool.not_eq_true', coincide_symm] at different
        rw [List.findIdx_cons, different, cond_false]
      constructor
      · intro other isOther
        rw [later other isOther, List.findIdx_cons, coincide_self, cond_true]
        exact Nat.succ_pos _
      · refine (ih.sublist List.filter_sublist).imp_of_mem ?_
        intro left right isLeft isRight order
        rw [later left isLeft, later right isRight]
        exact Nat.succ_lt_succ order

theorem firsts_once (added : List Violation) :
    (firsts added).Pairwise fun left right => coincide left right = false := by
  refine (firsts_pairwise added).imp ?_
  intro left right order
  by_contra same
  rw [Bool.not_eq_false] at same
  rw [coincide_congr same] at order
  exact Nat.lt_irrefl _ order

private theorem comesBefore_trans (first second third : Violation) (before : comesBefore first second = true)
    (after : comesBefore second third = true) : comesBefore first third = true := by
  rw [comesBefore_iff] at before after ⊢
  exact before.trans after

private theorem comesBefore_total (left right : Violation) :
    (comesBefore left right || comesBefore right left) = true := by
  rw [Bool.or_eq_true, comesBefore_iff, comesBefore_iff]
  exact le_total _ _

theorem sorted_pairwise (violations : List Violation) :
    (violations.mergeSort comesBefore).Pairwise fun left right => left.location ≤ right.location :=
  (List.pairwise_mergeSort comesBefore_trans comesBefore_total violations).imp comesBefore_iff.mp

def isAt (location : List Nat ×ₗ Int ×ₗ Int) (violation : Violation) : Bool :=
  decide (violation.location = location)

theorem sorted_filter (violations : List Violation) (location : List Nat ×ₗ Int ×ₗ Int) :
    (violations.mergeSort comesBefore).filter (isAt location) = violations.filter (isAt location) := by
  refine mergeSort_filter comesBefore_trans comesBefore_total ?_ violations
  intro left right isLeft isRight
  rw [comesBefore_iff, of_decide_eq_true isLeft, of_decide_eq_true isRight]

/-! ### Settled reports -/

/-- Whether a list is what is left of the violations that were added. -/
structure Settled (added listed : List Violation) : Prop where
  ordered : listed.Pairwise fun left right => left.location ≤ right.location
  /-- Violations at one location stand in the order in which they were added. -/
  stable : listed.Pairwise fun left right =>
    left.location = right.location → added.findIdx (coincide left) < added.findIdx (coincide right)
  /-- A violation is left exactly if it is the first of those that coincide with it. -/
  first : ∀ violation, violation ∈ listed ↔ added.find? (coincide violation) = some violation
  once : listed.Pairwise fun left right => coincide left right = false

/-- A list by location that has at each location what deduplication leaves there is settled. -/
theorem Settled.of_parts {added listed : List Violation}
    (ordered : listed.Pairwise fun left right => left.location ≤ right.location)
    (parts : ∀ location, listed.filter (isAt location) = (firsts added).filter (isAt location)) :
    Settled added listed := by
  have together : ∀ left right, [left, right].Sublist listed → left.location = right.location →
      [left, right].Sublist (firsts added) := by
    intro left right sublist same
    have part := sublist.filter (isAt right.location)
    rw [parts, List.filter_eq_self.mpr] at part
    · exact part.trans List.filter_sublist
    · simp [isAt, same]
  refine ⟨ordered, List.pairwise_iff_forall_sublist.mpr ?_, ?_, List.pairwise_iff_forall_sublist.mpr ?_⟩
  · intro left right sublist same
    exact List.pairwise_iff_forall_sublist.mp (firsts_pairwise added) (together left right sublist same)
  · intro violation
    have part := congrArg (violation ∈ ·) (parts violation.location)
    simp only [List.mem_filter, isAt, decide_true, and_true, eq_iff_iff] at part
    rw [part, mem_firsts]
  · intro left right sublist
    by_contra same
    rw [Bool.not_eq_false] at same
    have apart := List.pairwise_iff_forall_sublist.mp (firsts_once added)
      (together left right sublist (coincide_iff.mp same).1)
    rw [same] at apart
    cases apart

theorem settled_sort_deduplicate (added : List Violation) :
    Settled added ((firsts added).mergeSort comesBefore) :=
  .of_parts (sorted_pairwise _) (sorted_filter _)

theorem Settled.unique {added listed others : List Violation} (settled : Settled added listed)
    (alsoSettled : Settled added others) : listed = others := by
  -- location and order of addition together are a strict order
  let precedes (left right : Violation) : Prop := left.location ≤ right.location ∧
    (left.location = right.location → added.findIdx (coincide left) < added.findIdx (coincide right))
  have irreflexive : ∀ left right, precedes left right → left ≠ right := by
    rintro left _ order rfl
    exact Nat.lt_irrefl _ (order.2 rfl)
  have sorted := settled.ordered.and settled.stable
  have alsoSorted := alsoSettled.ordered.and alsoSettled.stable
  have same : listed.Perm others := by
    refine (List.perm_ext_iff_of_nodup (sorted.imp (irreflexive _ _)) (alsoSorted.imp (irreflexive _ _))).mpr ?_
    intro violation
    rw [settled.first, alsoSettled.first]
  refine List.Perm.eq_of_pairwise ?_ sorted alsoSorted same
  intro left right _ _ order reverse
  have here := le_antisymm order.1 reverse.1
  exact absurd (order.2 here) (Nat.lt_asymm (reverse.2 here.symm))

end Reporter
end AccessorLint
