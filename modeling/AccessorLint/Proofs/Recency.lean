import Mathlib
import AccessorLint.Proofs.Accounting
import AccessorLint.Proofs.Visits
set_option autoImplicit false

/-!
The order of the entries of a cache, and which of them give way.

The paths that a cache holds stand in the order of their last use, the least recent first.  When a file is read anew, no
more of the least recent entries give way than have to: those that stay are as many of the most recent ones as fit
beside the file.
-/

namespace AccessorLint

/-- Whether an entry is valid for a file with these bytes and this stamp. -/
def CachedFile.IsOf (entry : CachedFile) (bytes : Text.Bytes) (stamp : Int) : Prop :=
  entry.stamp = stamp ∧ entry.size = bytes.length

/-- Whether a file with these bytes and this stamp stands at a path. -/
structure Disk.FileAt (disk : Disk) (path : Text) (bytes : Text.Bytes) (stamp : Int) : Prop where
  nulFree : path.contains (.glyph '\x00') = false
  found : disk.find? (disk.keyOf path) = some (.file bytes stamp)

namespace Cache

/-! ### Eviction -/

/-- Whether some entries are as many of the most recent ones as fit beside a file of a size. -/
structure MostThatFit (maxBytes : Int) (size : Nat) (entries kept : List (Path × CachedFile)) : Prop where
  recent : kept <:+ entries
  fits : bytesOf kept + size ≤ maxBytes
  longest : ∀ others, others <:+ entries → bytesOf others + size ≤ maxBytes → others <:+ kept

theorem evicted_longest {maxBytes : Int} {size : Nat} {entries : List (Path × CachedFile)} {total : Int}
    (totalEq : total = bytesOf entries) {others : List (Path × CachedFile)} (recent : others <:+ entries)
    (fits : bytesOf others + size ≤ maxBytes) : others <:+ (evicted maxBytes size entries total).1 := by
  induction entries generalizing total with
  | nil => exact recent
  | cons held rest ih =>
      rw [evicted]
      split
      · apply ih
        · rw [totalEq, bytesOf_cons]
          omega
        · -- all entries together do not fit
          rcases List.suffix_cons_iff.mp recent with whole | fewer
          · rw [whole, ← totalEq] at fits
            omega
          · exact fewer
      · exact recent

theorem evicted_mostThatFit {maxBytes : Int} {size : Nat} {entries : List (Path × CachedFile)} {total : Int}
    (totalEq : total = bytesOf entries) (possible : (size : Int) ≤ maxBytes) :
    MostThatFit maxBytes size entries (evicted maxBytes size entries total).1 where
  recent := evicted_suffix maxBytes size entries total
  fits := by
    rw [← evicted_total totalEq]
    exact evicted_fits totalEq possible
  longest _ recent fits := evicted_longest totalEq recent fits

theorem store_of_larger {cache : Cache} {entry : CachedFile} (larger : cache.maxBytes < entry.size) (key : Path) :
    (cache.store key entry).entries = without cache.entries key := by
  unfold store
  dsimp only
  rw [(drop_keeps cache key).1, if_pos larger, drop_entries]

theorem store_of_fitting {cache : Cache} (accounted : Accounted cache) {entry : CachedFile}
    (fitting : (entry.size : Int) ≤ cache.maxBytes) (key : Path) :
    ∃ kept, (cache.store key entry).entries = kept ++ [(key, entry)] ∧
      MostThatFit cache.maxBytes entry.size (without cache.entries key) kept := by
  have total := (accounted.drop key).total
  rw [drop_entries] at total
  refine ⟨_, ?_, evicted_mostThatFit total fitting⟩
  unfold store
  dsimp only
  rw [(drop_keeps cache key).1, if_neg (Int.not_lt.mpr fitting), drop_entries]

/-! ### Lookups -/

/-- How the lookup of a file leaves the entries: a valid entry becomes the last one, a file that is read anew takes the
last place, unless it is larger than the limit, and the other entries stay in their order. -/
structure Refreshes (cache after : Cache) (key : Path) (bytes : Text.Bytes) (stamp : Int) : Prop where
  valid : ∀ entry, cache.entries.lookup key = some entry → entry.IsOf bytes stamp →
    after.entries = without cache.entries key ++ [(key, entry)]
  larger : (∀ entry, cache.entries.lookup key = some entry → ¬entry.IsOf bytes stamp) → cache.maxBytes < bytes.length →
    after.entries = without cache.entries key
  fitting : (∀ entry, cache.entries.lookup key = some entry → ¬entry.IsOf bytes stamp) → bytes.length ≤ cache.maxBytes →
    ∃ kept, after.entries = kept ++ [(key, ⟨Text.decode bytes, stamp, bytes.length⟩)] ∧
      MostThatFit cache.maxBytes bytes.length (without cache.entries key) kept

theorem fetch_refreshes {cache : Cache} (accounted : Accounted cache) {disk : Disk} {key : Path} {bytes : Text.Bytes}
    {stamp : Int} (found : disk.find? key = some (.file bytes stamp)) :
    (cache.fetch disk key).1.isSome = true ∧ cache.Refreshes (cache.fetch disk key).2 key bytes stamp := by
  have fetched := fetch_fetched cache disk key
  generalize cache.fetch disk key = result at fetched ⊢
  cases fetched with
  | missing nothing =>
      rw [found] at nothing
      cases nothing
  | directory isDirectory =>
      rw [found] at isDirectory
      cases isDirectory
  | hit current entry currentFound size held =>
      rw [found, Option.some.injEq, Node.file.injEq] at currentFound
      obtain ⟨rfl, rfl⟩ := currentFound
      refine ⟨rfl, ?_, ?_, ?_⟩
      · intro other otherHeld _
        rw [Option.some.inj (otherHeld.symm.trans held)]
        rfl
      · intro stale
        exact absurd ⟨rfl, size⟩ (stale entry held)
      · intro stale
        exact absurd ⟨rfl, size⟩ (stale entry held)
  | read current currentStamp currentFound stale =>
      rw [found, Option.some.injEq, Node.file.injEq] at currentFound
      obtain ⟨rfl, rfl⟩ := currentFound
      have counted : Accounted { cache with misses := cache.misses + 1 } := accounted.congr rfl rfl rfl
      refine ⟨rfl, ?_, ?_, ?_⟩
      · intro entry held valid
        exact absurd valid (stale entry held)
      · intro _ larger
        exact @store_of_larger { cache with misses := cache.misses + 1 } ⟨_, _, _⟩ larger key
      · intro _ fitting
        exact @store_of_fitting _ counted ⟨_, _, _⟩ fitting key

theorem get_of_nulFree {path : Text} (nulFree : path.contains (.glyph '\x00') = false) (cache : Cache) (disk : Disk) :
    cache.get disk path = .ok (cache.fetch disk (disk.keyOf path)) := by
  rw [get_eq, if_neg (Bool.eq_false_iff.mp nulFree)]

end Cache

/-! ### Uses -/

/-- The absolute path that an event uses: that of a lookup that gives a content. -/
def Workspace.used (workspace : Workspace) : CacheEvent → List Path
  | .get path =>
      match workspace.cache.get workspace.disk path with
      | .ok (some _, _) => [workspace.disk.keyOf path]
      | _ => []
  | .invalidate _ => []
  | .clear => []
  | .change _ => []

/-- The paths that events use, one after the other. -/
def Workspace.uses : Workspace → List CacheEvent → List Path
  | _, [] => []
  | workspace, event :: rest => workspace.used event ++ (workspace.after event).uses rest

/-- With a new use of a path its earlier ones do not count. -/
theorem dedup_concat (trail : List Path) (key : Path) :
    (trail ++ [key]).dedup = trail.dedup.filter (· ≠ key) ++ [key] := by
  induction trail with
  | nil => rfl
  | cons first rest ih =>
      rw [List.cons_append]
      by_cases again : first ∈ rest
      · rw [List.dedup_cons_of_mem again, List.dedup_cons_of_mem (List.mem_append_left _ again), ih]
      · rw [List.dedup_cons_of_notMem again]
        by_cases same : first = key
        · rw [List.dedup_cons_of_mem (by simp [same]), ih, List.filter_cons_of_neg (by simp [same])]
        · rw [List.dedup_cons_of_notMem (by simp [same, again]), ih, List.filter_cons_of_pos (by simp [same])]
          rfl

/-- Whether the paths of some entries stand in the order of their last uses.  Of a path that is used several times only
the last use is left by `dedup`. -/
def InOrderOfUse (entries : List (Path × CachedFile)) (trail : List Path) : Prop :=
  (entries.map Prod.fst).Sublist trail.dedup

namespace InOrderOfUse

variable {entries fewer : List (Path × CachedFile)} {trail : List Path}

theorem sublist (ordered : InOrderOfUse entries trail) (sub : fewer.Sublist entries) : InOrderOfUse fewer trail :=
  (sub.map Prod.fst).trans ordered

/-- The other entries keep their order when a path is used. -/
theorem others (ordered : InOrderOfUse entries trail) (key : Path) :
    ((Cache.without entries key).map Prod.fst).Sublist (trail.dedup.filter (· ≠ key)) := by
  have paths : (Cache.without entries key).map Prod.fst = (entries.map Prod.fst).filter (· ≠ key) := by
    rw [List.filter_map]
    rfl
  rw [paths]
  exact ordered.filter _

theorem used (ordered : InOrderOfUse entries trail) {key : Path} {entry : CachedFile}
    (sub : fewer.Sublist (Cache.without entries key)) : InOrderOfUse (fewer ++ [(key, entry)]) (trail ++ [key]) := by
  rw [InOrderOfUse, dedup_concat, List.map_append]
  exact ((sub.map Prod.fst).trans (ordered.others key)).append (.refl _)

theorem used_unheld (ordered : InOrderOfUse entries trail) (key : Path) :
    InOrderOfUse (Cache.without entries key) (trail ++ [key]) := by
  rw [InOrderOfUse, dedup_concat]
  exact (ordered.others key).trans (List.sublist_append_left _ _)

end InOrderOfUse

/-- A lookup keeps the entries in the order of their last uses. -/
theorem Cache.fetch_inOrderOfUse {cache : Cache} {trail : List Path} (ordered : InOrderOfUse cache.entries trail)
    (disk : Disk) (key : Path) :
    InOrderOfUse (cache.fetch disk key).2.entries
      (trail ++ if (cache.fetch disk key).1.isSome then [key] else []) := by
  have fetched := fetch_fetched cache disk key
  generalize cache.fetch disk key = result at fetched ⊢
  cases fetched with
  | missing nothing =>
      rw [Option.isSome_none, if_neg Bool.false_ne_true, List.append_nil, drop_entries]
      exact ordered.sublist (without_sublist cache.entries key)
  | directory found =>
      rw [Option.isSome_none, if_neg Bool.false_ne_true, List.append_nil]
      exact ordered
  | hit bytes entry found size held => exact ordered.used (.refl _)
  | read bytes stamp found stale =>
      rw [Option.isSome_some, if_pos rfl]
      unfold store
      dsimp only
      rw [drop_entries]
      split
      · rw [drop_entries]
        exact ordered.used_unheld key
      · exact ordered.used (evicted_suffix _ _ _ _).sublist

theorem Workspace.after_inOrderOfUse {workspace : Workspace} {trail : List Path}
    (ordered : InOrderOfUse workspace.cache.entries trail) (event : CacheEvent) :
    InOrderOfUse (workspace.after event).cache.entries (trail ++ workspace.used event) := by
  cases event with
  | get path =>
      rw [after, used]
      by_cases nul : path.contains (.glyph '\x00') = true
      · rw [Cache.get, if_pos nul, List.append_nil]
        exact ordered
      · rw [Cache.get_of_nulFree (Bool.eq_false_iff.mpr nul)]
        have fetched := Cache.fetch_inOrderOfUse ordered workspace.disk (workspace.disk.keyOf path)
        cases result : workspace.cache.fetch workspace.disk (workspace.disk.keyOf path) with
        | mk content cache =>
            rw [result] at fetched
            cases content with
            | none => exact fetched
            | some text => exact fetched
  | invalidate path =>
      rw [used, List.append_nil, after, Cache.invalidate, Cache.drop_entries]
      exact ordered.sublist (Cache.without_sublist _ _)
  | clear =>
      rw [used, List.append_nil]
      exact List.nil_sublist _
  | change disk =>
      rw [used, List.append_nil]
      exact ordered

theorem Workspace.run_inOrderOfUse (events : List CacheEvent) {workspace : Workspace} {trail : List Path}
    (ordered : InOrderOfUse workspace.cache.entries trail) :
    InOrderOfUse (events.foldl Workspace.after workspace).cache.entries (trail ++ workspace.uses events) := by
  induction events generalizing workspace trail with
  | nil =>
      rw [uses, List.append_nil]
      exact ordered
  | cons event rest ih =>
      rw [uses, ← List.append_assoc]
      exact ih (workspace.after_inOrderOfUse ordered event)

/-- Whatever has happened to a cache and to the files, its entries stand in the order of their last uses, and the lookup
of a file moves a valid entry to the end or puts the file there, where as few of the least recent entries give way as
can be. -/
theorem entries_kept_by_recency (maxBytes : Int) (disk : Disk) (events : List CacheEvent) :
    let workspace := events.foldl Workspace.after ⟨disk, .empty maxBytes⟩
    InOrderOfUse workspace.cache.entries (Workspace.uses ⟨disk, .empty maxBytes⟩ events) ∧
      workspace.cache.maxBytes = maxBytes ∧
      ∀ path bytes stamp, workspace.disk.FileAt path bytes stamp →
        ∃ text cache, workspace.cache.get workspace.disk path = .ok (some text, cache) ∧
          workspace.cache.Refreshes cache (workspace.disk.keyOf path) bytes stamp := by
  intro workspace
  have start : InOrderOfUse (Cache.empty maxBytes).entries [] := List.nil_sublist _
  obtain ⟨accounted, limit, -⟩ :=
    @Workspace.run_accounted events ⟨disk, .empty maxBytes⟩ (Cache.Accounted.empty maxBytes)
  refine ⟨@Workspace.run_inOrderOfUse events ⟨disk, .empty maxBytes⟩ [] start, limit, ?_⟩
  intro path bytes stamp file
  obtain ⟨content, refreshes⟩ := Cache.fetch_refreshes accounted file.found
  obtain ⟨text, isText⟩ := Option.isSome_iff_exists.mp content
  refine ⟨text, _, ?_, refreshes⟩
  rw [Cache.get_of_nulFree file.nulFree, ← isText]

/-- Of two files, the one that was used again stays when a third is read. -/
theorem file_used_again_stays :
    let disk : Disk := ⟨[(["a"], .file [1, 2] 0), (["b"], .file [3, 4, 5] 1), (["c"], .file [6, 7] 2)], [], 3⟩
    ∃ workspace, [CacheEvent.get "a", .get "b", .get "a"].foldl Workspace.after ⟨disk, .empty 5⟩ = workspace ∧
      workspace.disk.FileAt "c" [6, 7] 2 ∧
      workspace.cache.entries.map Prod.fst = [.ofText "/b", .ofText "/a"] ∧
      ∃ text cache kept, workspace.cache.get workspace.disk "c" = .ok (some text, cache) ∧
        cache.entries = kept ++ [(.ofText "/c", ⟨Text.decode [6, 7], 2, 2⟩)] ∧
        Cache.MostThatFit 5 2 workspace.cache.entries kept ∧ kept.map Prod.fst = [.ofText "/a"] := by
  intro disk
  have byRecency := entries_kept_by_recency 5 disk [.get "a", .get "b", .get "a"]
  obtain ⟨workspace, run, file, key, held, absent, after, got, paths⟩ : ∃ workspace,
      [CacheEvent.get "a", .get "b", .get "a"].foldl Workspace.after ⟨disk, .empty 5⟩ = workspace ∧
        workspace.disk.FileAt "c" [6, 7] 2 ∧ workspace.disk.keyOf "c" = .ofText "/c" ∧
        workspace.cache.entries.map Prod.fst = [.ofText "/b", .ofText "/a"] ∧
        workspace.cache.entries.lookup (.ofText "/c") = none ∧
        ∃ result, workspace.cache.get workspace.disk "c" = .ok result ∧
          result.2.entries.map Prod.fst = [.ofText "/a", .ofText "/c"] :=
    ⟨_, rfl, ⟨by decide, by decide +kernel⟩, by decide +kernel, by decide +kernel, by decide +kernel, _, rfl,
      by decide +kernel⟩
  rw [run] at byRecency
  obtain ⟨-, limit, lookups⟩ := byRecency
  obtain ⟨text, cache, refreshed, refreshes⟩ := lookups "c" [6, 7] 2 file
  rw [key] at refreshes
  have fits := refreshes.fitting
  rw [absent, limit, Cache.without_of_absent (Cache.absent_of_lookup absent)] at fits
  obtain ⟨kept, entries, most⟩ := fits (by simp) (by decide)
  rw [Except.ok.inj (got.symm.trans refreshed), entries, List.map_append] at paths
  exact ⟨workspace, run, file, held, text, cache, kept, refreshed, entries, most, (List.append_inj' paths rfl).1⟩

end AccessorLint
