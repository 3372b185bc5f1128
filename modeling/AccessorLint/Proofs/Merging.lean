import Mathlib
import AccessorLint.Proofs.Entries
import AccessorLint.Settings.Basic
set_option autoImplicit false

/-!
Mappings laid over others.

Laying a mapping over another is a union of the two at all depths, in which the one on top wins: where both have
mappings these are merged, and everywhere else what the mapping on top says holds, if it says something.  The keys of the
mapping below come first.  A mapping that is laid over another once more, or over itself, changes nothing.
-/

namespace AccessorLint

/-! ### Mappings -/

/-- Whether the keys of each mapping in a value are all different, as far as mappings stand in mappings. -/
inductive Value.Proper : Value → Prop where
  | scalar (value : Scalar) : Proper (.scalar value)
  | list (items : List Value) : Proper (.list items)
  | mapping {entries : Entries} (different : Entries.Different (entries.map Prod.fst))
      (values : ∀ entry ∈ entries, Proper entry.2) : Proper (.mapping entries)

namespace Value

theorem Proper.different {entries : Entries} (proper : Proper (.mapping entries)) :
    Entries.Different (entries.map Prod.fst) := by
  cases proper with
  | mapping different values => exact different

theorem Proper.bound {entries : Entries} (proper : Proper (.mapping entries)) {key : Scalar} {value : Value}
    (bound : Entries.get? key entries = some value) : value.Proper := by
  cases proper with
  | mapping different values =>
      obtain ⟨first, isEntry, -⟩ := Entries.exists_of_get? bound
      exact values (first, value) isEntry

def IsMapping : Value → Prop
  | .mapping _ => True
  | _ => False

/-- The value at a path of keys. -/
def at? : List Scalar → Value → Option Value
  | [], value => some value
  | key :: rest, .mapping entries => (Entries.get? key entries).bind (at? rest)
  | _ :: _, _ => none

theorem mapping_or_not (below : Option Value) :
    (∃ base, below = some (.mapping base)) ∨ ∀ value, below = some value → ¬value.IsMapping := by
  rcases below with _ | (_ | _ | base)
  · exact .inr fun value isValue => by cases isValue
  · exact .inr fun value isValue => by cases isValue; exact id
  · exact .inr fun value isValue => by cases isValue; exact id
  · exact .inl ⟨base, rfl⟩

theorem over_mapping (base entries : Entries) :
    Value.over (some (.mapping base)) (.mapping entries) = .mapping (base.merge entries) := by
  rw [Value.over]

theorem over_of_not_mapping {below : Option Value} (other : ∀ value, below = some value → ¬value.IsMapping)
    (value : Value) : Value.over below value = value := by
  cases value with
  | scalar value => rw [Value.over]
  | list items => rw [Value.over]
  | mapping entries =>
      rw [Value.over]
      rintro base rfl
      exact absurd trivial (other _ rfl)

/-- A value that is no mapping replaces what is below it. -/
theorem over_eq_of_not_mapping {value : Value} (other : ¬value.IsMapping) (below : Option Value) :
    Value.over below value = value := by
  cases value with
  | scalar value => rw [Value.over]
  | list items => rw [Value.over]
  | mapping entries => exact absurd trivial other

end Value

namespace Entries

/-! ### Keys and bindings of a merged mapping -/

theorem keys_set (entries : Entries) (key : Scalar) (value : Value) :
    (set key value entries).map Prod.fst =
      entries.map Prod.fst ++ if (get? key entries).isNone then [key] else [] := by
  induction entries with
  | nil => rfl
  | cons entry rest ih =>
      obtain ⟨first, old⟩ := entry
      rw [set, get?_cons]
      split
      · simp
      · rw [List.map_cons, ih, List.map_cons, List.cons_append]

/-- The keys below come first, then those that only the mapping on top has. -/
theorem keys_merge {base above : Entries} (different : Different (above.map Prod.fst)) :
    (base.merge above).map Prod.fst =
      base.map Prod.fst ++ (above.map Prod.fst).filter fun key => (get? key base).isNone := by
  induction above generalizing base with
  | nil => rw [merge, List.map_nil, List.filter_nil, List.append_nil]
  | cons entry rest ih =>
      obtain ⟨key, value⟩ := entry
      rw [List.map_cons, Different, List.pairwise_cons] at different
      -- none of the keys that follow is the one that is bound first
      have unbound : ∀ later ∈ rest.map Prod.fst,
          (get? later (set key (Value.over (get? key base) value) base)).isNone = (get? later base).isNone := by
        intro later isLater
        rw [get?_set, different.1 later isLater, if_neg Bool.false_ne_true]
      rw [merge, ih different.2, keys_set, List.filter_congr unbound, List.append_assoc, List.map_cons,
        List.filter_cons]
      split <;> rfl

/-- What a merged mapping binds to a key: what the one on top binds to it, over what the one below does. -/
theorem get?_merge {base above : Entries} (different : Different (above.map Prod.fst)) (key : Scalar) :
    get? key (base.merge above) =
      match get? key above with
      | some value => some (Value.over (get? key base) value)
      | none => get? key base := by
  induction above generalizing base with
  | nil => rw [merge]; rfl
  | cons entry rest ih =>
      obtain ⟨first, value⟩ := entry
      rw [List.map_cons, Different, List.pairwise_cons] at different
      rw [merge, ih different.2, get?_set, get?_cons]
      cases alike : first.same key with
      | false => rfl
      | true =>
          have absent : get? key rest = none := by
            rw [get?_congr (show key.same first = true by rw [Scalar.same_symm]; exact alike), get?_eq_none_iff]
            intro later isLater
            rw [Scalar.same_symm]
            exact different.1 later isLater
          rw [absent, if_pos rfl, if_pos rfl, get?_congr alike]

theorem different_merge {base above : Entries} (below : Different (base.map Prod.fst))
    (different : Different (above.map Prod.fst)) : Different ((base.merge above).map Prod.fst) := by
  rw [keys_merge different, Different, List.pairwise_append]
  refine ⟨below, List.Pairwise.sublist List.filter_sublist different, ?_⟩
  intro first isFirst key isKey
  have absent := (List.mem_filter.mp isKey).2
  rw [Option.isNone_iff_eq_none, get?_eq_none_iff] at absent
  exact absent first isFirst

end Entries

/-! ### Laying over once more -/

/-- A mapping that has all keys of another, laid over by it, keeps its keys. -/
theorem Entries.merge_eq_self {base above : Entries} (below : Different (base.map Prod.fst))
    (different : Different (above.map Prod.fst))
    (covered : ∀ key value, get? key above = some value →
      ∃ old, get? key base = some old ∧ Value.over (some old) value = old) : base.merge above = base := by
  refine ext_of_keys (different_merge below different) ?_ ?_
  · rw [keys_merge different, List.filter_eq_nil_iff.mpr, List.append_nil]
    intro key isKey
    obtain ⟨entry, isEntry, rfl⟩ := List.mem_map.mp isKey
    obtain ⟨value, bound⟩ := Option.isSome_iff_exists.mp (get?_isSome_of_mem isEntry)
    obtain ⟨old, oldBound, -⟩ := covered _ value bound
    rw [oldBound]
    simp
  · intro key
    rw [get?_merge different]
    cases bound : get? key above with
    | none => rfl
    | some value =>
        obtain ⟨old, oldBound, unchanged⟩ := covered key value bound
        rw [oldBound]
        exact congrArg some unchanged

theorem Value.over_self {value : Value} (proper : value.Proper) : Value.over (some value) value = value := by
  induction proper with
  | scalar value => rw [Value.over]
  | list items => rw [Value.over]
  | mapping different values ih =>
      rw [over_mapping, Entries.merge_eq_self different different]
      intro key value bound
      obtain ⟨first, isEntry, -⟩ := Entries.exists_of_get? bound
      exact ⟨value, bound, ih (first, value) isEntry⟩

theorem Value.over_over {value : Value} (proper : value.Proper) {below : Option Value}
    (belowProper : ∀ old, below = some old → old.Proper) :
    Value.over (some (Value.over below value)) value = Value.over below value := by
  induction proper generalizing below with
  | scalar value => rw [Value.over, Value.over]
  | list items => rw [Value.over, Value.over]
  | @mapping entries different values ih =>
      rcases mapping_or_not below with ⟨base, rfl⟩ | other
      · have baseProper := belowProper _ rfl
        rw [over_mapping, over_mapping,
          Entries.merge_eq_self (Entries.different_merge baseProper.different different) different]
        intro key value bound
        obtain ⟨first, isEntry, -⟩ := Entries.exists_of_get? bound
        refine ⟨Value.over (Entries.get? key base) value, ?_, ih (first, value) isEntry fun old => baseProper.bound⟩
        rw [Entries.get?_merge different, bound]
      · rw [over_of_not_mapping other]
        exact over_self (.mapping different values)

/-! ### Paths -/

namespace Value

theorem bind_at?_cons (key : Scalar) (rest : List Scalar) (below : Option Value) :
    (below.bind (at? [key])).bind (at? rest) = below.bind (at? (key :: rest)) := by
  rcases below with _ | (_ | _ | entries)
  · rfl
  · rfl
  · rfl
  · rw [Option.bind_some, Option.bind_some, at?, at?]
    cases Entries.get? key entries <;> rfl

theorem bind_at?_of_not_mapping {below : Option Value} (other : ∀ value, below = some value → ¬value.IsMapping)
    (key : Scalar) (rest : List Scalar) : below.bind (at? (key :: rest)) = none := by
  rcases below with _ | (_ | _ | base)
  · rfl
  · rfl
  · rfl
  · exact absurd trivial (other _ rfl)

theorem exists_of_at?_cons {key : Scalar} {rest : List Scalar} {value found : Value}
    (bound : at? (key :: rest) value = some found) :
    ∃ entries inner,
      value = .mapping entries ∧ Entries.get? key entries = some inner ∧ at? rest inner = some found := by
  cases value with
  | scalar value => cases bound
  | list items => cases bound
  | mapping entries =>
      obtain ⟨inner, isInner, isFound⟩ := Option.bind_eq_some_iff.mp bound
      exact ⟨entries, inner, rfl, isInner, isFound⟩

/-- Below a key that a mapping binds, its value lies over what is bound to the key below. -/
theorem at?_over_of_bound {entries : Entries} (different : Entries.Different (entries.map Prod.fst)) {key : Scalar}
    {inner : Value} (bound : Entries.get? key entries = some inner) (rest : List Scalar) (below : Option Value) :
    at? (key :: rest) (Value.over below (.mapping entries)) = at? rest (Value.over (below.bind (at? [key])) inner) := by
  rcases mapping_or_not below with ⟨base, rfl⟩ | other
  · have below : (some (mapping base)).bind (at? [key]) = Entries.get? key base := by
      rw [Option.bind_some, at?]
      cases Entries.get? key base <;> rfl
    rw [over_mapping, at?, Entries.get?_merge different, bound, Option.bind_some, below]
  · rw [over_of_not_mapping other, bind_at?_of_not_mapping other, at?, bound, Option.bind_some,
      over_of_not_mapping fun _ isNone => by cases isNone]

theorem at?_over_of_unbound {entries : Entries} (different : Entries.Different (entries.map Prod.fst)) {key : Scalar}
    (unbound : Entries.get? key entries = none) (rest : List Scalar) (below : Option Value) :
    at? (key :: rest) (Value.over below (.mapping entries)) = below.bind (at? (key :: rest)) := by
  rcases mapping_or_not below with ⟨base, rfl⟩ | other
  · rw [over_mapping, at?, Entries.get?_merge different, unbound, Option.bind_some, at?]
  · rw [over_of_not_mapping other, bind_at?_of_not_mapping other, at?, unbound, Option.bind_none]

theorem at?_over {value : Value} (proper : value.Proper) {path : List Scalar} {found : Value}
    (bound : at? path value = some found) (below : Option Value) :
    at? path (Value.over below value) = some (Value.over (below.bind (at? path)) found) := by
  induction path generalizing value below with
  | nil =>
      rw [← Option.some.inj bound]
      cases below <;> rfl
  | cons key rest ih =>
      obtain ⟨entries, inner, rfl, isInner, isFound⟩ := exists_of_at?_cons bound
      rw [at?_over_of_bound proper.different isInner, ih (proper.bound isInner) isFound, bind_at?_cons]

theorem at?_over_of_none {value : Value} (proper : value.Proper) {path : List Scalar} (unbound : at? path value = none)
    (mappings : ∀ start inner, start <+: path → start ≠ path → at? start value = some inner → inner.IsMapping)
    (below : Option Value) : at? path (Value.over below value) = below.bind (at? path) := by
  induction path generalizing value below with
  | nil => cases unbound
  | cons key rest ih =>
      have isMapping := mappings [] value List.nil_prefix (List.cons_ne_nil key rest).symm rfl
      cases value with
      | scalar value => cases isMapping
      | list items => cases isMapping
      | mapping entries =>
          cases bound : Entries.get? key entries with
          | none => exact at?_over_of_unbound proper.different bound rest below
          | some inner =>
              have inside : ∀ start, at? (key :: start) (.mapping entries) = at? start inner := by
                intro start
                rw [at?, bound, Option.bind_some]
              rw [inside] at unbound
              rw [at?_over_of_bound proper.different bound, ih (proper.bound bound) unbound, bind_at?_cons]
              · intro start found isStart shorter isFound
                refine mappings (key :: start) found (List.cons_prefix_cons.mpr ⟨rfl, isStart⟩) ?_ ?_
                · exact fun same => shorter (List.cons.inj same).2
                · rw [inside]
                  exact isFound

end Value

/-! ### The union of two mappings -/

/-- Whether a mapping is the union of two at all depths, in which the one on top wins. -/
structure Entries.RightBiased (base above merged : Entries) : Prop where
  /-- The keys below come first, then those that only the mapping on top has. -/
  keys : merged.map Prod.fst =
    base.map Prod.fst ++ (above.map Prod.fst).filter fun key => (get? key base).isNone
  /-- What is no mapping holds if it is on top. -/
  replaced : ∀ path value, Value.at? path (.mapping above) = some value → ¬value.IsMapping →
    Value.at? path (.mapping merged) = some value
  /-- A mapping on top holds as it is where there is none below. -/
  added : ∀ path entries, Value.at? path (.mapping above) = some (.mapping entries) →
    (∀ old, Value.at? path (.mapping base) = some old → ¬old.IsMapping) →
    Value.at? path (.mapping merged) = some (.mapping entries)
  /-- Where both have mappings, these are merged. -/
  united : ∀ (path : List Scalar) (below entries : Entries), Value.at? path (.mapping above) = some (.mapping entries) →
    Value.at? path (.mapping base) = some (.mapping below) →
    Value.at? path (.mapping merged) = some (.mapping (below.merge entries))
  /-- What is below shows where nothing is on top and what is on the way there are mappings. -/
  kept : ∀ path, Value.at? path (.mapping above) = none →
    (∀ start value, start <+: path → start ≠ path → Value.at? start (.mapping above) = some value → value.IsMapping) →
    Value.at? path (.mapping merged) = Value.at? path (.mapping base)

theorem Entries.merge_rightBiased {base above : Entries} (proper : (Value.mapping above).Proper) :
    RightBiased base above (base.merge above) := by
  have laid := Value.over_mapping base above
  refine ⟨keys_merge proper.different, ?_, ?_, ?_, ?_⟩
  · intro path value bound other
    rw [← laid, Value.at?_over proper bound, Value.over_eq_of_not_mapping other]
  · intro path entries bound below
    rw [← laid, Value.at?_over proper bound, Option.bind_some, Value.over_of_not_mapping below]
  · intro path below entries bound isBelow
    rw [← laid, Value.at?_over proper bound, Option.bind_some, isBelow, Value.over_mapping]
  · intro path unbound mappings
    rw [← laid, Value.at?_over_of_none proper unbound mappings, Option.bind_some]

/-- Laying a mapping over another gives their union at all depths, in which the one on top wins, and changes nothing
when it is done once more or with one mapping. -/
theorem merging_unites_mappings (base above : Entries) (belowProper : (Value.mapping base).Proper)
    (proper : (Value.mapping above).Proper) :
    Entries.RightBiased base above (base.merge above) ∧
      (base.merge above).merge above = base.merge above ∧ base.merge base = base := by
  refine ⟨Entries.merge_rightBiased proper, ?_, ?_⟩
  · have again := @Value.over_over _ proper (some (.mapping base)) fun old isOld => by
      rw [← Option.some.inj isOld]
      exact belowProper
    rw [Value.over_mapping, Value.over_mapping] at again
    exact Value.mapping.inj again
  · have same := Value.over_self belowProper
    rw [Value.over_mapping] at same
    exact Value.mapping.inj same

instance (keys : List Scalar) : Decidable (Entries.Different keys) :=
  inferInstanceAs (Decidable (keys.Pairwise fun left right => left.same right = false))

theorem Value.proper_mapping_iff {entries : Entries} :
    (mapping entries).Proper ↔ Entries.Different (entries.map Prod.fst) ∧ ∀ entry ∈ entries, entry.2.Proper :=
  ⟨fun | .mapping different values => ⟨different, values⟩, fun both => .mapping both.1 both.2⟩

theorem Settings.defaults_proper : (Value.mapping Settings.defaults).Proper := by
  have leaf : ∀ value, (Value.scalar value).Proper := .scalar
  have items : ∀ values, (Value.list values).Proper := .list
  simp only [Settings.defaults, Settings.record, Settings.texts, Value.bool, Value.int, Value.text, List.map_cons,
    List.map_nil, Value.proper_mapping_iff, List.forall_mem_cons, leaf, items, true_and, List.not_mem_nil,
    false_imp_iff, implies_true, and_true]
  decide

/-- What a user says of the workers and of a rule holds, and all else stays as it is by default. -/
theorem workers_set_over_defaults :
    let user : Entries := [(.text "performance", .mapping [(.text "max_workers", .int 4)]),
      (.text "python_rules", .mapping [(.text "method_name_get_prefix", .bool false)]), (.text "notes", .text "ours")]
    let merged := Settings.defaults.merge user
    (Value.mapping Settings.defaults).Proper ∧ (Value.mapping user).Proper ∧
      merged.map Prod.fst = Settings.defaults.map Prod.fst ++ [.text "notes"] ∧
      Value.at? [.text "performance", .text "max_workers"] (.mapping merged) = some (.int 4) ∧
      Value.at? [.text "performance", .text "parallel"] (.mapping merged) = some (.bool true) ∧
      Value.at? [.text "python_rules", .text "method_name_get_prefix"] (.mapping merged) = some (.bool false) ∧
      merged.merge user = merged := by
  intro user merged
  have userProper : (Value.mapping user).Proper := by
    have leaf : ∀ value, (Value.scalar value).Proper := .scalar
    simp only [user, Value.bool, Value.int, Value.text, List.map_cons, List.map_nil, Value.proper_mapping_iff,
      List.forall_mem_cons, leaf, List.not_mem_nil, false_imp_iff, implies_true, and_true]
    decide
  obtain ⟨union, again, -⟩ := merging_unites_mappings Settings.defaults user Settings.defaults_proper userProper
  refine ⟨Settings.defaults_proper, userProper, union.keys, ?_, ?_, ?_, again⟩
  · exact union.replaced _ (.int 4) rfl id
  · refine (union.kept _ rfl ?_).trans rfl
    intro start value isStart shorter bound
    rcases List.prefix_cons_iff.mp isStart with rfl | ⟨rest, rfl, isRest⟩
    · rw [← Option.some.inj bound]
      exact trivial
    · rcases List.prefix_cons_iff.mp isRest with rfl | ⟨last, rfl, isLast⟩
      · rw [← Option.some.inj bound]
        exact trivial
      · rw [List.prefix_nil.mp isLast] at shorter
        exact absurd rfl shorter
  · exact union.replaced _ (.bool false) rfl id

end AccessorLint
