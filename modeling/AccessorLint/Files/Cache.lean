import AccessorLint.Files.Disk
set_option autoImplicit false

/-!
A cache of file contents with a limit on its size.

Entries are kept in the order of their last use, the least recent first.  An entry is valid as long as the file has
the stamp and the size that it had when it was read.  When the limit would be passed, the least recent entries give
way.
-/

namespace AccessorLint

/-- The content of a file, with the stamp and the number of bytes it had when it was read. -/
structure CachedFile where
  content : Text
  stamp : Int
  size : Nat
deriving DecidableEq, Repr

structure Cache where
  /-- The entries by absolute path, the least recently used first. -/
  entries : List (Path × CachedFile)
  /-- The limit on the number of bytes. -/
  maxBytes : Int
  /-- The number of bytes of the files held. -/
  totalBytes : Int
  /-- How often a valid entry was found. -/
  hits : Nat
  /-- How often one was not. -/
  misses : Nat
deriving DecidableEq, Repr

/-- Why a path means nothing at all. -/
inductive PathError where
  /-- It holds a NUL. -/
  | nulByte
deriving DecidableEq, Repr

def PathError.message : PathError → Text
  | nulByte => "embedded null byte"

namespace Cache

/-- A cache without entries. -/
def empty (maxBytes : Int) : Cache :=
  ⟨[], maxBytes, 0, 0, 0⟩

/-- A cache that holds so many megabytes. -/
def ofMegabytes (megabytes : Int) : Cache :=
  empty (megabytes * 1024 * 1024)

/-- The cache without an entry. -/
def drop (cache : Cache) (key : Path) : Cache :=
  match cache.entries.lookup key with
  | none => cache
  | some entry =>
      { cache with
        entries := cache.entries.filter fun (other, _) => other ≠ key
        totalBytes := cache.totalBytes - entry.size }

/-- The entries that stay, and their number of bytes, when the least recent ones give way until so many more bytes
fit. -/
def evicted (maxBytes : Int) (size : Nat) : List (Path × CachedFile) → Int → List (Path × CachedFile) × Int
  | [], total => ([], total)
  | (key, entry) :: rest, total =>
      if maxBytes < total + size then evicted maxBytes size rest (total - entry.size) else ((key, entry) :: rest, total)

/-- The cache with an entry, which becomes the most recent one.  A file larger than the limit is not held. -/
def store (cache : Cache) (key : Path) (entry : CachedFile) : Cache :=
  let freed := cache.drop key
  if freed.maxBytes < entry.size then freed
  else
    let (kept, total) := evicted freed.maxBytes entry.size freed.entries freed.totalBytes
    { freed with entries := kept ++ [(key, entry)], totalBytes := total + entry.size }

/-- The cache with an entry made the most recent one. -/
def touch (cache : Cache) (key : Path) (entry : CachedFile) : Cache :=
  { cache with entries := (cache.entries.filter fun (other, _) => other ≠ key) ++ [(key, entry)] }

/-- The content of the file at an absolute path where something has been seen before, or nothing: from the cache if its
entry has the stamp and the size that were seen, else from the disk as it is now.  Nothing is returned for a directory or
a missing file. -/
def fetchSeen (cache : Cache) (disk : Disk) (key : Path) : Option Node → Option Text × Cache
  | none => (none, cache.drop key)
  | some .directory => (none, { cache with misses := cache.misses + 1 })
  | some (.file seen stamp) =>
      match (cache.entries.lookup key).filter fun entry => entry.stamp = stamp && entry.size = seen.length with
      | some entry => (some entry.content, { cache.touch key entry with hits := cache.hits + 1 })
      | none =>
          let missed := { cache with misses := cache.misses + 1 }
          match disk.find? key with
          | some (.file bytes _) =>
              let entry : CachedFile := ⟨Text.decode bytes, stamp, seen.length⟩
              (some entry.content, missed.store key entry)
          | _ => (none, missed)

/-- The content of the file at an absolute path. -/
def fetch (cache : Cache) (disk : Disk) (key : Path) : Option Text × Cache :=
  cache.fetchSeen disk key (disk.find? key)

/-- The content of the file at a path. -/
def get (cache : Cache) (disk : Disk) (path : Text) : Except PathError (Option Text × Cache) :=
  if path.contains (.glyph '\x00') then .error .nulByte
  else .ok (cache.fetch disk (disk.absolute (.ofText path)))

/-- The cache without the entry of a path. -/
def invalidate (cache : Cache) (disk : Disk) (path : Text) : Cache :=
  cache.drop (disk.absolute (.ofText path))

/-- The cache without entries and with its counts at zero. -/
def clear (cache : Cache) : Cache :=
  empty cache.maxBytes

/-- The share of the lookups that were hits, in thousandths of a percent, a half to the even side. -/
def hitRate (cache : Cache) : Nat :=
  let lookups := cache.hits + cache.misses
  if lookups = 0 then 0
  else
    let scaled := cache.hits * 100000
    let quotient := scaled / lookups
    let twice := 2 * (scaled % lookups)
    if twice < lookups then quotient
    else if lookups < twice then quotient + 1
    else quotient + quotient % 2

/-- The hit rate in percent as it is written. -/
def hitRateText (cache : Cache) : Text :=
  let places := Text.ofNat (cache.hitRate % 1000)
  Text.ofNat (cache.hitRate / 1000) ++ "." ++ Text.repeated (3 - places.length) '0' ++ places

end Cache

end AccessorLint
