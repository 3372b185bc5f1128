import Mathlib
import AccessorLint.Value.Basic
set_option autoImplicit false

/-!
Entries of mappings: when two keys are the same, and what is bound to a key.

A key that is bound anew keeps its place, and all other keys keep their values.  Entries whose keys are all different
are known by the list of their keys and by what is bound to each key.
-/

namespace AccessorLint

/-! ### Keys -/

namespace Scalar

/-- What a scalar is as a key: a whole number, or only itself. -/
def identity (scalar : Scalar) : Int ⊕ Scalar :=
  match scalar.whole? with
  | some number => .inl number
  | none => .inr scalar

theorem same_iff {left right : Scalar} : left.same right = true ↔ left.identity = right.identity := by
  unfold same identity
  cases left.whole? <;> cases right.whole? <;> simp

theorem same_self (key : Scalar) : key.same key = true :=
  same_iff.mpr rfl

theorem same_symm (left right : Scalar) : left.same right = right.same left := by
  rw [Bool.eq_iff_iff, same_iff, same_iff, eq_comm]

theorem same_congr {left right : Scalar} (alike : left.same right = true) (key : Scalar) :
    left.same key = right.same key := by
  rw [same_iff] at alike
  rw [Bool.eq_iff_iff, same_iff, same_iff, alike]

theorem same_text (left right : Text) : (text left).same (text right) = decide (left = right) := by
  rw [Bool.eq_iff_iff, same_iff, decide_eq_true_eq]
  simp [identity, whole?]

end Scalar

theorem Text.ofString_injective : Function.Injective Text.ofString := by
  intro left right same
  have chars : left.toList = right.toList := List.map_injective_iff.mpr (fun _ _ => Symbol.glyph.inj) same
  exact String.toList_inj.mp chars

theorem Scalar.same_name (left right : String) :
    (text (Text.ofString left)).same (text (Text.ofString right)) = decide (left = right) := by
  rw [same_text]
  simp only [Text.ofString_injective.eq_iff]

namespace Entries

/-! ### What is bound to a key -/

theorem get?_cons (first : Scalar) (value : Value) (rest : Entries) (key : Scalar) :
    get? key ((first, value) :: rest) = if first.same key then some value else get? key rest :=
  rfl

theorem get?_congr {left right : Scalar} (alike : left.same right = true) (entries : Entries) :
    get? left entries = get? right entries := by
  induction entries with
  | nil => rfl
  | cons entry rest ih =>
      obtain ⟨first, value⟩ := entry
      rw [get?_cons, get?_cons, ih, Scalar.same_symm first left, Scalar.same_symm first right, Scalar.same_congr alike]

theorem get?_set (entries : Entries) (key other : Scalar) (value : Value) :
    get? other (set key value entries) = if key.same other then some value else get? other entries := by
  induction entries with
  | nil => rfl
  | cons entry rest ih =>
      obtain ⟨first, old⟩ := entry
      rw [set, get?_cons]
      cases alike : first.same key with
      | true =>
          rw [if_pos rfl, get?_cons, Scalar.same_congr alike]
          split <;> rfl
      | false =>
          rw [if_neg Bool.false_ne_true, get?_cons, ih]
          cases atFirst : first.same other with
          | true =>
              -- the first key is the other one, so it is not the one that is bound
              rw [Scalar.same_congr atFirst, Scalar.same_symm] at alike
              rw [alike]
              rfl
          | false => rfl

theorem get?_eq_none_iff {entries : Entries} {key : Scalar} :
    get? key entries = none ↔ ∀ first ∈ entries.map Prod.fst, first.same key = false := by
  induction entries with
  | nil => simp [get?]
  | cons entry rest ih =>
      obtain ⟨first, value⟩ := entry
      rw [get?_cons, List.map_cons, List.forall_mem_cons, ← ih]
      cases first.same key <;> simp

theorem exists_of_get? {entries : Entries} {key : Scalar} {value : Value} (bound : get? key entries = some value) :
    ∃ first, (first, value) ∈ entries ∧ first.same key = true := by
  induction entries with
  | nil => cases bound
  | cons entry rest ih =>
      obtain ⟨first, own⟩ := entry
      rw [get?_cons] at bound
      split at bound
      · rename_i alike
        rw [← Option.some.inj bound]
        exact ⟨first, List.mem_cons_self, alike⟩
      · obtain ⟨found, isEntry, alike⟩ := ih bound
        exact ⟨found, List.mem_cons_of_mem _ isEntry, alike⟩

theorem get?_isSome_of_mem {entries : Entries} {entry : Scalar × Value} (isEntry : entry ∈ entries) :
    (get? entry.1 entries).isSome = true := by
  rw [Option.isSome_iff_ne_none, Ne, get?_eq_none_iff]
  intro absent
  have different := absent entry.1 (List.mem_map_of_mem isEntry)
  rw [Scalar.same_self] at different
  cases different

/-! ### What is bound to a name -/

theorem find?_cons (name other : String) (value : Value) (rest : Entries) :
    find? ((.text name, value) :: rest) other = if name = other then some value else find? rest other := by
  unfold find?
  rw [get?_cons, Scalar.same_name]
  simp

def Different (keys : List Scalar) : Prop :=
  keys.Pairwise fun left right => left.same right = false

/-- Entries with different keys are known by their keys and by what is bound to each. -/
theorem ext_of_keys {entries others : Entries} (different : Different (entries.map Prod.fst))
    (keys : entries.map Prod.fst = others.map Prod.fst) (bound : ∀ key, get? key entries = get? key others) :
    entries = others := by
  induction entries generalizing others with
  | nil => exact (List.map_eq_nil_iff.mp keys.symm).symm
  | cons entry rest ih =>
      cases others with
      | nil => cases keys
      | cons other otherRest =>
          obtain ⟨first, value⟩ := entry
          obtain ⟨otherFirst, otherValue⟩ := other
          rw [List.map_cons, List.map_cons] at keys
          obtain ⟨rfl, restKeys⟩ := List.cons.inj keys
          rw [List.map_cons, Different, List.pairwise_cons] at different
          have values := bound first
          rw [get?_cons, get?_cons, if_pos (Scalar.same_self first), if_pos (Scalar.same_self first)] at values
          rw [Option.some.inj values, ih different.2 restKeys]
          intro key
          have both := bound key
          rw [get?_cons, get?_cons] at both
          split at both
          · -- the first key stands in neither rest
            rename_i alike
            have absent : ∀ others : Entries, others.map Prod.fst = rest.map Prod.fst → get? key others = none := by
              intro others sameKeys
              have reversed : key.same first = true := by rw [Scalar.same_symm]; exact alike
              rw [get?_congr reversed, get?_eq_none_iff, sameKeys]
              intro later isLater
              rw [Scalar.same_symm]
              exact different.1 later isLater
            rw [absent rest rfl, absent otherRest restKeys.symm]
          · exact both

end Entries

end AccessorLint
