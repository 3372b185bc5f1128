import Mathlib
import AccessorLint.Lint.Engine
import AccessorLint.Proofs.CacheEntries
set_option autoImplicit false

/-!
The accounts of a cache.

Files can be created, rewritten and deleted between any two calls of a cache.  After each call its number of bytes is
that of the entries it holds and within its limit, no path is held twice, and its counts add up to the lookups that
found something at their path.
-/

namespace AccessorLint

namespace Cache

/-! ### Numbers of bytes -/

/-- The number of bytes of the files that some entries hold. -/
def bytesOf (entries : List (Path × CachedFile)) : Int :=
  (entries.map fun held => (held.2.size : Int)).sum

theorem bytesOf_cons (held : Path × CachedFile) (rest : List (Path × CachedFile)) :
    bytesOf (held :: rest) = held.2.size + bytesOf rest := by
  rw [bytesOf, List.map_cons, List.sum_cons, bytesOf]

theorem bytesOf_concat (entries : List (Path × CachedFile)) (key : Path) (entry : CachedFile) :
    bytesOf (entries ++ [(key, entry)]) = bytesOf entries + entry.size := by
  rw [bytesOf, List.map_append, List.sum_append, List.map_singleton, List.sum_singleton, bytesOf]

theorem bytesOf_perm {left right : List (Path × CachedFile)} (same : left.Perm right) :
    bytesOf left = bytesOf right :=
  (same.map _).sum_eq

theorem bytesOf_sublist {fewer entries : List (Path × CachedFile)} (sublist : fewer.Sublist entries) :
    bytesOf fewer ≤ bytesOf entries := by
  induction sublist with
  | slnil => exact Int.le_refl _
  | cons held _ ih =>
      rw [bytesOf_cons]
      omega
  | cons_cons held _ ih =>
      rw [bytesOf_cons, bytesOf_cons]
      omega

/-! ### The accounts -/

/-- Whether the accounts of a cache are in order. -/
structure Accounted (cache : Cache) : Prop where
  total : cache.totalBytes = bytesOf cache.entries
  within : bytesOf cache.entries ≤ max 0 cache.maxBytes
  distinct : (cache.entries.map Prod.fst).Nodup
  fitting : ∀ held ∈ cache.entries, (held.2.size : Int) ≤ cache.maxBytes

theorem Accounted.empty (maxBytes : Int) : Accounted (empty maxBytes) := by
  constructor
  · rfl
  · exact Int.le_max_left 0 maxBytes
  · exact List.nodup_nil
  · intro held member
    cases member

/-- Nothing but the entries and their number of bytes matters. -/
theorem Accounted.congr {cache other : Cache} (accounted : Accounted cache) (entries : other.entries = cache.entries)
    (total : other.totalBytes = cache.totalBytes) (limit : other.maxBytes = cache.maxBytes) : Accounted other := by
  constructor
  · rw [total, entries, accounted.total]
  · rw [entries, limit]
    exact accounted.within
  · rw [entries]
    exact accounted.distinct
  · rw [entries, limit]
    exact accounted.fitting

theorem Accounted.drop {cache : Cache} (accounted : Accounted cache) (key : Path) : Accounted (cache.drop key) := by
  have sublist := without_sublist cache.entries key
  constructor
  · rw [drop_entries]
    unfold Cache.drop
    cases found : cache.entries.lookup key with
    | none =>
        rw [without_of_absent (absent_of_lookup found)]
        exact accounted.total
    | some entry =>
        have whole := bytesOf_perm (perm_of_lookup accounted.distinct found)
        rw [bytesOf_concat] at whole
        have total := accounted.total
        dsimp only
        omega
  · rw [drop_entries, (drop_keeps cache key).1]
    exact Int.le_trans (bytesOf_sublist sublist) accounted.within
  · rw [drop_entries]
    exact accounted.distinct.sublist (sublist.map Prod.fst)
  · intro held member
    rw [(drop_keeps cache key).1]
    exact accounted.fitting held (mem_drop.mp member).1

/-! ### Eviction -/

theorem evicted_total {maxBytes : Int} {size : Nat} {entries : List (Path × CachedFile)} {total : Int}
    (totalEq : total = bytesOf entries) :
    (evicted maxBytes size entries total).2 = bytesOf (evicted maxBytes size entries total).1 := by
  induction entries generalizing total with
  | nil => exact totalEq
  | cons held rest ih =>
      rw [evicted]
      split
      · apply ih
        rw [totalEq, bytesOf_cons]
        omega
      · exact totalEq

/-- Entries give way until the new file fits. -/
theorem evicted_fits {maxBytes : Int} {size : Nat} {entries : List (Path × CachedFile)} {total : Int}
    (totalEq : total = bytesOf entries) (fits : (size : Int) ≤ maxBytes) :
    (evicted maxBytes size entries total).2 + size ≤ maxBytes := by
  induction entries generalizing total with
  | nil =>
      have nothing : total = 0 := totalEq
      change total + size ≤ maxBytes
      omega
  | cons held rest ih =>
      rw [evicted]
      split
      · apply ih
        rw [totalEq, bytesOf_cons]
        omega
      · rename_i fitting
        exact Int.not_lt.mp fitting

theorem Accounted.store {cache : Cache} (accounted : Accounted cache) (key : Path) (entry : CachedFile) :
    Accounted (cache.store key entry) := by
  have freed := accounted.drop key
  unfold Cache.store
  dsimp only
  split
  · exact freed
  · rename_i notLarger
    have fits := Int.not_lt.mp notLarger
    have suffix := evicted_suffix (cache.drop key).maxBytes entry.size (cache.drop key).entries
      (cache.drop key).totalBytes
    have total := @evicted_total (cache.drop key).maxBytes entry.size _ _ freed.total
    have room := evicted_fits freed.total fits
    constructor
    · dsimp only
      rw [bytesOf_concat, total]
    · dsimp only
      rw [bytesOf_concat, ← total]
      exact Int.le_trans room (Int.le_max_right 0 _)
    · dsimp only
      rw [List.map_append, List.map_singleton, List.nodup_append]
      refine ⟨freed.distinct.sublist (suffix.sublist.map Prod.fst), List.nodup_singleton key, ?_⟩
      intro old oldMember new newMember
      obtain ⟨held, inKept, rfl⟩ := List.mem_map.mp oldMember
      rw [List.mem_singleton.mp newMember]
      exact (mem_drop.mp (suffix.subset inKept)).2
    · intro held member
      rcases List.mem_append.mp member with old | new
      · exact freed.fitting held (suffix.subset old)
      · rw [List.mem_singleton.mp new]
        exact fits

theorem Accounted.touch {cache : Cache} (accounted : Accounted cache) {key : Path} {entry : CachedFile}
    (found : cache.entries.lookup key = some entry) : Accounted (cache.touch key entry) := by
  have moved := perm_of_lookup accounted.distinct found
  constructor
  · rw [touch_entries, ← bytesOf_perm moved]
    exact accounted.total
  · rw [touch_entries, ← bytesOf_perm moved]
    exact accounted.within
  · rw [touch_entries]
    exact (moved.map Prod.fst).nodup_iff.mp accounted.distinct
  · intro held member
    exact accounted.fitting held (moved.mem_iff.mpr member)

/-! ### Lookups -/

theorem Accounted.fetch {cache : Cache} (accounted : Accounted cache) (disk : Disk) (key : Path) :
    Accounted (cache.fetch disk key).2 := by
  have fetched := fetch_fetched cache disk key
  generalize cache.fetch disk key = result at fetched ⊢
  cases fetched with
  | missing nothing => exact accounted.drop key
  | directory found => exact accounted.congr rfl rfl rfl
  | hit bytes entry found size held => exact (accounted.touch held).congr rfl rfl rfl
  | read bytes stamp found stale =>
      apply Accounted.store
      exact accounted.congr rfl rfl rfl

theorem fetch_maxBytes (cache : Cache) (disk : Disk) (key : Path) :
    (cache.fetch disk key).2.maxBytes = cache.maxBytes := by
  have fetched := fetch_fetched cache disk key
  generalize cache.fetch disk key = result at fetched ⊢
  cases fetched with
  | missing nothing => exact (drop_keeps cache key).1
  | directory found => rfl
  | hit bytes entry found size held => rfl
  | read bytes stamp found stale => exact (store_keeps _ key _).1

/-- A lookup is counted, as a hit or as a miss, if something stands at its path. -/
theorem fetch_counts (cache : Cache) (disk : Disk) (key : Path) :
    (cache.fetch disk key).2.hits + (cache.fetch disk key).2.misses =
      cache.hits + cache.misses + if (disk.find? key).isSome then 1 else 0 := by
  have fetched := fetch_fetched cache disk key
  generalize cache.fetch disk key = result at fetched ⊢
  cases fetched with
  | missing nothing =>
      dsimp only
      rw [(drop_keeps cache key).2.1, (drop_keeps cache key).2.2, nothing]
      rfl
  | directory found =>
      rw [found]
      rfl
  | hit bytes entry found size held =>
      rw [found]
      exact Nat.add_right_comm _ _ _
  | read bytes stamp found stale =>
      dsimp only
      rw [(store_keeps _ key _).2.1, (store_keeps _ key _).2.2, found]
      rfl

end Cache

/-! ### Histories -/

/-- A call of a cache, or a change of the files between calls. -/
inductive CacheEvent where
  | get (path : Text)
  | invalidate (path : Text)
  | clear
  | change (disk : Disk)

/-- The files and the cache after an event. -/
def Workspace.after (workspace : Workspace) : CacheEvent → Workspace
  | .get path =>
      match workspace.cache.get workspace.disk path with
      | .ok (_, cache) => { workspace with cache := cache }
      | .error _ => workspace
  | .invalidate path => { workspace with cache := workspace.cache.invalidate workspace.disk path }
  | .clear => { workspace with cache := workspace.cache.clear }
  | .change disk => { workspace with disk := disk }

/-- Whether something stands at a path.  Nothing does if it has a NUL. -/
def Disk.reaches (disk : Disk) (path : Text) : Bool :=
  !path.contains (.glyph '\x00') && (disk.find? (disk.absolute (.ofText path))).isSome

/-- The number of lookups since the last clearing that found something at their path, after so many before. -/
def lookupsAfter : Disk → Nat → List CacheEvent → Nat
  | _, count, [] => count
  | disk, count, .get path :: rest => lookupsAfter disk (if disk.reaches path then count + 1 else count) rest
  | disk, count, .invalidate _ :: rest => lookupsAfter disk count rest
  | disk, _, .clear :: rest => lookupsAfter disk 0 rest
  | _, count, .change disk :: rest => lookupsAfter disk count rest

theorem Workspace.after_get (workspace : Workspace) (path : Text) :
    workspace.after (.get path) = workspace ∧ workspace.disk.reaches path = false ∨
      ∃ key, workspace.after (.get path) = { workspace with cache := (workspace.cache.fetch workspace.disk key).2 } ∧
        workspace.disk.reaches path = (workspace.disk.find? key).isSome := by
  simp only [after, Cache.get, Disk.reaches]
  by_cases nul : path.contains (.glyph '\x00') = true
  · rw [if_pos nul, nul]
    exact Or.inl ⟨rfl, rfl⟩
  · rw [if_neg nul, Bool.eq_false_iff.mpr nul]
    exact Or.inr ⟨_, rfl, Bool.true_and _⟩

theorem Workspace.after_accounted {workspace : Workspace} (accounted : workspace.cache.Accounted)
    (event : CacheEvent) : (workspace.after event).cache.Accounted := by
  cases event with
  | get path =>
      rcases workspace.after_get path with ⟨unchanged, -⟩ | ⟨key, fetched, -⟩
      · rw [unchanged]
        exact accounted
      · rw [fetched]
        exact accounted.fetch workspace.disk key
  | invalidate path => exact accounted.drop _
  | clear => exact Cache.Accounted.empty workspace.cache.maxBytes
  | change disk => exact accounted

theorem Workspace.after_maxBytes (workspace : Workspace) (event : CacheEvent) :
    (workspace.after event).cache.maxBytes = workspace.cache.maxBytes := by
  cases event with
  | get path =>
      rcases workspace.after_get path with ⟨unchanged, -⟩ | ⟨key, fetched, -⟩
      · rw [unchanged]
      · rw [fetched]
        exact Cache.fetch_maxBytes workspace.cache workspace.disk key
  | invalidate path => exact (Cache.drop_keeps workspace.cache _).1
  | clear => rfl
  | change disk => rfl

/-- An event changes the counts of the cache and the number of lookups alike. -/
theorem Workspace.after_counts (workspace : Workspace) (event : CacheEvent) (rest : List CacheEvent) :
    lookupsAfter workspace.disk (workspace.cache.hits + workspace.cache.misses) (event :: rest) =
      lookupsAfter (workspace.after event).disk
        ((workspace.after event).cache.hits + (workspace.after event).cache.misses) rest := by
  cases event with
  | get path =>
      rw [lookupsAfter]
      rcases workspace.after_get path with ⟨unchanged, unreached⟩ | ⟨key, fetched, reached⟩
      · rw [unchanged, unreached, if_neg Bool.false_ne_true]
      · rw [fetched, reached, Cache.fetch_counts]
        cases (workspace.disk.find? key).isSome <;> rfl
  | invalidate path =>
      have kept := Cache.drop_keeps workspace.cache (workspace.disk.absolute (.ofText path))
      rw [lookupsAfter, after]
      dsimp only
      rw [Cache.invalidate, kept.2.1, kept.2.2]
  | clear => rfl
  | change disk => rfl

theorem Workspace.run_accounted (events : List CacheEvent) {workspace : Workspace}
    (accounted : workspace.cache.Accounted) :
    let final := events.foldl Workspace.after workspace
    final.cache.Accounted ∧ final.cache.maxBytes = workspace.cache.maxBytes ∧
      final.cache.hits + final.cache.misses =
        lookupsAfter workspace.disk (workspace.cache.hits + workspace.cache.misses) events := by
  induction events generalizing workspace with
  | nil => exact ⟨accounted, rfl, rfl⟩
  | cons event rest ih =>
      obtain ⟨inOrder, limit, counts⟩ := ih (workspace.after_accounted accounted event)
      refine ⟨inOrder, limit.trans (workspace.after_maxBytes event), ?_⟩
      rw [workspace.after_counts event rest]
      exact counts

/-- The accounts of a cache are in order after every call, whatever its limit and whatever happens to the files. -/
theorem cache_accounts_in_order (maxBytes : Int) (disk : Disk) (events : List CacheEvent) :
    let cache := (events.foldl Workspace.after ⟨disk, .empty maxBytes⟩).cache
    cache.totalBytes = (cache.entries.map fun held => (held.2.size : Int)).sum ∧
      (cache.entries.map fun held => (held.2.size : Int)).sum ≤ max 0 maxBytes ∧
      (cache.entries.map Prod.fst).Nodup ∧
      (∀ held ∈ cache.entries, (held.2.size : Int) ≤ maxBytes) ∧
      cache.hits + cache.misses = lookupsAfter disk 0 events := by
  obtain ⟨inOrder, limit, counts⟩ :=
    @Workspace.run_accounted events ⟨disk, .empty maxBytes⟩ (Cache.Accounted.empty maxBytes)
  have within := inOrder.within
  have fitting := inOrder.fitting
  rw [limit] at within fitting
  exact ⟨inOrder.total, within, inOrder.distinct, fitting, counts⟩

end AccessorLint
