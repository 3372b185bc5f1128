import Mathlib
import AccessorLint.Files.Cache
set_option autoImplicit false

/-!
The entries of a cache under its operations.

An operation takes away the entries of one path, lets the least recent entries give way, or puts one entry at the end.
A lookup ends in one of four ways, by what stands at its path and what the cache holds of it.
-/

namespace AccessorLint.Cache

/-- The entries of all other paths. -/
def without (entries : List (Path × CachedFile)) (key : Path) : List (Path × CachedFile) :=
  entries.filter fun held => held.1 ≠ key

theorem mem_without {entries : List (Path × CachedFile)} {key : Path} {held : Path × CachedFile} :
    held ∈ without entries key ↔ held ∈ entries ∧ held.1 ≠ key := by
  rw [without, List.mem_filter, decide_eq_true_iff]

theorem without_sublist (entries : List (Path × CachedFile)) (key : Path) : (without entries key).Sublist entries :=
  List.filter_sublist

theorem without_of_absent {entries : List (Path × CachedFile)} {key : Path}
    (absent : ∀ held ∈ entries, held.1 ≠ key) : without entries key = entries := by
  apply List.filter_eq_self.mpr
  intro held member
  exact decide_eq_true (absent held member)

theorem absent_of_lookup {entries : List (Path × CachedFile)} {key : Path} (missing : entries.lookup key = none) :
    ∀ held ∈ entries, held.1 ≠ key := by
  intro held member same
  have different := List.lookup_eq_none_iff.mp missing held member
  rw [same, bne_self_eq_false] at different
  cases different

theorem mem_of_lookup {entries : List (Path × CachedFile)} {key : Path} {entry : CachedFile}
    (found : entries.lookup key = some entry) : (key, entry) ∈ entries := by
  obtain ⟨before, after, split, -⟩ := List.lookup_eq_some_iff.mp found
  rw [split]
  exact List.mem_append_right before List.mem_cons_self

/-- Where no path is held twice, an entry that is found is the only one of its path. -/
theorem perm_of_lookup {entries : List (Path × CachedFile)} {key : Path} {entry : CachedFile}
    (distinct : (entries.map Prod.fst).Nodup) (found : entries.lookup key = some entry) :
    entries.Perm (without entries key ++ [(key, entry)]) := by
  obtain ⟨before, after, rfl, -⟩ := List.lookup_eq_some_iff.mp found
  rw [List.map_append, List.map_cons] at distinct
  have moved := List.nodup_cons.mp (List.nodup_middle.mp distinct)
  have others : without (before ++ (key, entry) :: after) key = before ++ after := by
    rw [without, List.filter_append, List.filter_cons_of_neg (by simp), ← List.filter_append]
    apply without_of_absent
    intro held member same
    apply moved.1
    rw [← List.map_append]
    exact List.mem_map.mpr ⟨held, member, same⟩
  rw [others]
  exact List.perm_middle.trans (List.perm_append_singleton _ _).symm

/-! ### Single operations -/

theorem drop_entries (cache : Cache) (key : Path) : (cache.drop key).entries = without cache.entries key := by
  unfold drop
  cases found : cache.entries.lookup key with
  | none => exact (without_of_absent (absent_of_lookup found)).symm
  | some entry => rfl

theorem drop_keeps (cache : Cache) (key : Path) :
    (cache.drop key).maxBytes = cache.maxBytes ∧ (cache.drop key).hits = cache.hits ∧
      (cache.drop key).misses = cache.misses := by
  unfold drop
  split
  · exact ⟨rfl, rfl, rfl⟩
  · exact ⟨rfl, rfl, rfl⟩

theorem mem_drop {cache : Cache} {key : Path} {held : Path × CachedFile} :
    held ∈ (cache.drop key).entries ↔ held ∈ cache.entries ∧ held.1 ≠ key := by
  rw [drop_entries, mem_without]

theorem evicted_suffix (maxBytes : Int) (size : Nat) (entries : List (Path × CachedFile)) (total : Int) :
    (evicted maxBytes size entries total).1 <:+ entries := by
  induction entries generalizing total with
  | nil => exact List.suffix_rfl
  | cons held rest ih =>
      rw [evicted]
      split
      · exact (ih _).trans (List.suffix_cons held rest)
      · exact List.suffix_rfl

theorem store_keeps (cache : Cache) (key : Path) (entry : CachedFile) :
    (cache.store key entry).maxBytes = cache.maxBytes ∧ (cache.store key entry).hits = cache.hits ∧
      (cache.store key entry).misses = cache.misses := by
  unfold store
  dsimp only
  split
  · exact drop_keeps cache key
  · exact drop_keeps cache key

/-- After a file has been stored, the entries are old ones of other paths and perhaps its own. -/
theorem mem_store {cache : Cache} {key : Path} {entry : CachedFile} {held : Path × CachedFile}
    (member : held ∈ (cache.store key entry).entries) :
    (held ∈ cache.entries ∧ held.1 ≠ key) ∨ held = (key, entry) := by
  unfold store at member
  dsimp only at member
  split at member
  · exact Or.inl (mem_drop.mp member)
  · rcases List.mem_append.mp member with old | new
    · exact Or.inl (mem_drop.mp ((evicted_suffix _ _ _ _).subset old))
    · exact Or.inr (List.mem_singleton.mp new)

theorem touch_entries (cache : Cache) (key : Path) (entry : CachedFile) :
    (cache.touch key entry).entries = without cache.entries key ++ [(key, entry)] :=
  rfl

/-! ### Lookups -/

/-- How a lookup can end. -/
inductive Fetched (cache : Cache) (disk : Disk) (key : Path) : Option Text × Cache → Prop where
  | missing (nothing : disk.find? key = none) : Fetched cache disk key (none, cache.drop key)
  | directory (found : disk.find? key = some .directory) :
      Fetched cache disk key (none, { cache with misses := cache.misses + 1 })
  | hit (bytes : Text.Bytes) (entry : CachedFile) (found : disk.find? key = some (.file bytes entry.stamp))
      (size : entry.size = bytes.length) (held : cache.entries.lookup key = some entry) :
      Fetched cache disk key (some entry.content, { cache.touch key entry with hits := cache.hits + 1 })
  | read (bytes : Text.Bytes) (stamp : Int) (found : disk.find? key = some (.file bytes stamp))
      (stale : ∀ entry, cache.entries.lookup key = some entry → ¬(entry.stamp = stamp ∧ entry.size = bytes.length)) :
      Fetched cache disk key (some (Text.decode bytes),
        { cache with misses := cache.misses + 1 }.store key ⟨Text.decode bytes, stamp, bytes.length⟩)

theorem fetch_fetched (cache : Cache) (disk : Disk) (key : Path) : Fetched cache disk key (cache.fetch disk key) := by
  unfold fetch fetchSeen
  split
  · rename_i nothing
    exact .missing nothing
  · rename_i found
    exact .directory found
  · rename_i bytes stamp found
    simp only [found]
    split
    · rename_i entry valid
      obtain ⟨held, same⟩ := Option.filter_eq_some_iff.mp valid
      rw [Bool.and_eq_true, decide_eq_true_eq, decide_eq_true_eq] at same
      rw [← same.1] at found
      exact .hit bytes entry found same.2 held
    · rename_i invalid
      apply Fetched.read bytes stamp found
      rintro entry held ⟨sameStamp, sameSize⟩
      rw [held, Option.filter_eq_none_iff] at invalid
      exact invalid entry rfl (by simp [sameStamp, sameSize])

end AccessorLint.Cache
