import Mathlib
import AccessorLint.Files.Disk
set_option autoImplicit false

/-!
Where paths lead, and what writing a file changes.

A path that can be followed leads to the place that its absolute path names.  Writing a file changes what stands at
its place and nothing else, so every other path leads where it led before.
-/

namespace AccessorLint

open Text (Bytes)

/-! ### Names -/

/-- The names above a place, the last one first, after one name more. -/
def Path.climb (above : List Text) (name : Text) : List Text :=
  if name = ".." then above.drop 1 else name :: above

theorem Path.collapsed_eq (names : List Text) : collapsed names = (names.foldl climb []).reverse :=
  rfl

theorem Path.plain_collapsed (names : List Text) : ∀ name ∈ collapsed names, name ≠ ".." := by
  have plain : ∀ above : List Text, (∀ name ∈ above, name ≠ "..") → ∀ name ∈ names.foldl climb above, name ≠ ".." := by
    induction names with
    | nil => exact fun above plain => plain
    | cons name rest ih =>
        intro above abovePlain
        apply ih
        unfold climb
        split
        · intro other member
          exact abovePlain other (List.mem_of_mem_drop member)
        · rename_i isPlain
          intro other member
          rcases List.mem_cons.mp member with rfl | old
          · exact isPlain
          · exact abovePlain other old
  intro name member
  rw [collapsed_eq, List.mem_reverse] at member
  exact plain [] (fun _ absent => (List.not_mem_nil absent).elim) name member

namespace Disk

/-! ### Following names -/

/-- A name can be followed only from a directory. -/
theorem follow_cons_ok {disk : Disk} {place rest parts : List Text} {name : Text}
    (followed : disk.follow place (name :: rest) = .ok parts) :
    disk.node? place = some .directory ∧
      disk.follow (if name = ".." then place.dropLast else place ++ [name]) rest = .ok parts := by
  rw [follow] at followed
  split at followed
  · cases followed
  · cases followed
  · rename_i directory
    exact ⟨directory, followed⟩

theorem follow_collapsed {disk : Disk} {names place parts : List Text} (followed : disk.follow place names = .ok parts) :
    parts = (names.foldl Path.climb place.reverse).reverse := by
  induction names generalizing place with
  | nil =>
      rw [List.foldl_nil, List.reverse_reverse]
      exact (Except.ok.inj followed).symm
  | cons name rest ih =>
      have climbed : (if name = ".." then place.dropLast else place ++ [name]).reverse =
          Path.climb place.reverse name := by
        unfold Path.climb
        split
        · rw [← List.tail_reverse, List.drop_one]
        · exact List.reverse_concat
      rw [ih (follow_cons_ok followed).2, climbed, List.foldl_cons]

theorem follow_plain {disk : Disk} {names place parts : List Text} (plain : ∀ name ∈ names, name ≠ "..")
    (followed : disk.follow place names = .ok parts) : parts = place ++ names := by
  induction names generalizing place with
  | nil =>
      rw [List.append_nil]
      exact (Except.ok.inj followed).symm
  | cons name rest ih =>
      have further := (follow_cons_ok followed).2
      rw [if_neg (plain name List.mem_cons_self)] at further
      rw [ih (fun other member => plain other (List.mem_cons_of_mem name member)) further, List.append_assoc]
      rfl

/-! ### Absolute paths -/

/-- The names that a path means, from the root directory. -/
def namesOf (disk : Disk) (path : Path) : List Text :=
  if path.isAbsolute then path.parts else disk.current ++ path.parts

theorem place_eq (disk : Disk) (path : Path) : disk.place path = disk.follow [] (disk.namesOf path) :=
  rfl

theorem absolute_parts (disk : Disk) (path : Path) :
    (disk.absolute path).parts = Path.collapsed (disk.namesOf path) := by
  unfold absolute namesOf Path.join Path.normalized
  split
  · rfl
  · rfl

theorem namesOf_absolute (disk : Disk) (path : Path) :
    disk.namesOf (disk.absolute path) = (disk.absolute path).parts := by
  have isAbsolute : (disk.absolute path).isAbsolute = true := by
    unfold absolute Path.join Path.normalized
    split
    · rename_i absolute
      exact absolute
    · rfl
  rw [namesOf, isAbsolute, if_pos rfl]

/-- A path that can be followed leads to the place that its absolute path names. -/
theorem place_eq_absolute {disk : Disk} {path : Path} {parts : List Text} (followed : disk.place path = .ok parts) :
    parts = (disk.absolute path).parts := by
  rw [place_eq] at followed
  rw [absolute_parts, Path.collapsed_eq]
  exact follow_collapsed followed

theorem place_of_absolute {disk : Disk} {path : Path} {parts : List Text}
    (followed : disk.place (disk.absolute path) = .ok parts) : parts = (disk.absolute path).parts := by
  rw [place_eq, namesOf_absolute] at followed
  apply follow_plain _ followed
  rw [absolute_parts]
  exact Path.plain_collapsed _

/-- What stands at an absolute path stands at the place that it names. -/
theorem node?_of_find? {disk : Disk} {path : Path} {node : Node}
    (found : disk.find? (disk.absolute path) = some node) : disk.node? (disk.absolute path).parts = some node := by
  unfold find? at found
  split at found
  · rename_i parts followed
    rw [← place_of_absolute followed]
    exact found
  · cases found

end Disk

/-! ### Contents -/

/-- The bytes of a file.  A directory has none. -/
def Node.bytes? : Node → Option Bytes
  | .file bytes _ => some bytes
  | .directory => none

namespace Disk

/-- What stands at a place, without its stamp. -/
def contentAt (disk : Disk) (place : List Text) : Option (Option Bytes) :=
  (disk.node? place).map Node.bytes?

/-- Whether what stands at a place is a file. -/
def isFileAt? (disk : Disk) (place : List Text) : Option Bool :=
  (disk.contentAt place).map Option.isSome

theorem isFileAt?_eq_false {disk : Disk} {place : List Text} :
    disk.isFileAt? place = some false ↔ disk.node? place = some .directory := by
  unfold isFileAt? contentAt
  cases disk.node? place with
  | none => simp
  | some node => cases node <;> simp [Node.bytes?]

theorem follow_cons (disk : Disk) (place : List Text) (name : Text) (rest : List Text) :
    disk.follow place (name :: rest) =
      match disk.isFileAt? place with
      | none => .error .notFound
      | some true => .error .notADirectory
      | some false => disk.follow (if name = ".." then place.dropLast else place ++ [name]) rest := by
  rw [follow, isFileAt?, contentAt]
  cases disk.node? place with
  | none => rfl
  | some node => cases node <;> rfl

/-- Whether files and directories stand at the same places, whatever the files contain. -/
structure Alike (one other : Disk) : Prop where
  current : one.current = other.current
  kinds : ∀ place, one.isFileAt? place = other.isFileAt? place

theorem Alike.refl (disk : Disk) : disk.Alike disk :=
  ⟨rfl, fun _ => rfl⟩

theorem Alike.trans {first second third : Disk} (before : first.Alike second) (after : second.Alike third) :
    first.Alike third :=
  ⟨before.current.trans after.current, fun place => (before.kinds place).trans (after.kinds place)⟩

theorem Alike.absolute_eq {one other : Disk} (alike : one.Alike other) (path : Path) :
    one.absolute path = other.absolute path := by
  rw [absolute, absolute, currentPath, currentPath, alike.current]

theorem Alike.follow_eq {one other : Disk} (alike : one.Alike other) (place names : List Text) :
    one.follow place names = other.follow place names := by
  induction names generalizing place with
  | nil => rfl
  | cons name rest ih => rw [follow_cons, follow_cons, alike.kinds, ih]

theorem Alike.place_eq {one other : Disk} (alike : one.Alike other) (path : Path) :
    one.place path = other.place path := by
  rw [place, place, alike.current, alike.follow_eq]

theorem Alike.isDirectoryAt_eq {one other : Disk} (alike : one.Alike other) (place : List Text) :
    one.isDirectoryAt place = other.isDirectoryAt place := by
  rw [isDirectoryAt, isDirectoryAt, Bool.eq_iff_iff, beq_iff_eq, beq_iff_eq, ← isFileAt?_eq_false,
    ← isFileAt?_eq_false, alike.kinds]

/-- What stands at an absolute path is the same on both disks, if it is the same at the place that it names. -/
theorem Alike.find?_eq {one other : Disk} (alike : one.Alike other) {path : Path}
    (same : one.node? (one.absolute path).parts = other.node? (one.absolute path).parts) :
    one.find? (one.absolute path) = other.find? (one.absolute path) := by
  unfold find?
  rw [← alike.place_eq]
  split
  · rename_i parts followed
    rw [place_of_absolute followed]
    exact same
  · rfl

/-! ### Writing -/

theorem lookup_setNode (place other : List Text) (node : Node) (nodes : List (List Text × Node)) :
    (setNode place node nodes).lookup other = if other = place then some node else nodes.lookup other := by
  induction nodes with
  | nil =>
      rw [setNode, List.lookup_cons]
      by_cases same : other = place
      · rw [if_pos same, beq_iff_eq.mpr same]
      · rw [if_neg same, beq_eq_false_iff_ne.mpr same]
  | cons head rest ih =>
      obtain ⟨first, old⟩ := head
      rw [setNode]
      by_cases here : first = place
      · subst here
        rw [if_pos rfl, List.lookup_cons, List.lookup_cons]
        by_cases same : other = first
        · rw [if_pos same, beq_iff_eq.mpr same]
        · rw [if_neg same, beq_eq_false_iff_ne.mpr same]
      · rw [if_neg here, List.lookup_cons, List.lookup_cons, ih]
        by_cases found : other = first
        · have different : other ≠ place := found ▸ here
          simp only [beq_iff_eq.mpr found, if_neg different]
        · rw [beq_eq_false_iff_ne.mpr found]

/-- A disk with new bytes in a file, or unchanged. -/
def rewritten (disk : Disk) (place : List Text) : Option Bytes → Disk
  | none => disk
  | some bytes => { disk with nodes := setNode place (.file bytes disk.now) disk.nodes, now := disk.now + 1 }

/-- A file is written at the place that its absolute path names. -/
theorem write_ok {disk later : Disk} {path : Path} {bytes : Bytes} (written : disk.write path bytes = .ok later) :
    later = disk.rewritten (disk.absolute path).parts (some bytes) := by
  unfold write at written
  cases followed : disk.place path with
  | error error =>
      rw [followed] at written
      cases written
  | ok parts =>
      obtain rfl := place_eq_absolute followed
      rw [followed] at written
      change (if disk.isDirectoryAt (disk.absolute path).parts then _ else _ : Except FileError Disk) = _ at written
      split at written
      · cases written
      · split at written
        · cases written
        · exact (Except.ok.inj written).symm

/-- Whether a file can be written does not depend on what files contain. -/
theorem Alike.write_cases {one other : Disk} (alike : one.Alike other) (path : Path) (bytes : Bytes) :
    (∃ error, one.write path bytes = .error error ∧ other.write path bytes = .error error) ∨
      ∃ later otherLater, one.write path bytes = .ok later ∧ other.write path bytes = .ok otherLater := by
  simp only [write, alike.place_eq, alike.isDirectoryAt_eq]
  cases other.place path with
  | error error => exact Or.inl ⟨error, rfl, rfl⟩
  | ok parts =>
      simp only [Except.bind, bind]
      split
      · exact Or.inl ⟨_, rfl, rfl⟩
      · split
        · exact Or.inl ⟨_, rfl, rfl⟩
        · exact Or.inr ⟨_, _, rfl, rfl⟩

theorem node?_rewritten {disk : Disk} {place : List Text} (nonempty : place ≠ []) (bytes : Bytes)
    (other : List Text) :
    (disk.rewritten place (some bytes)).node? other =
      if other = place then some (.file bytes disk.now) else disk.node? other := by
  simp only [node?, rewritten, lookup_setNode]
  by_cases top : other.isEmpty = true
  · have different : other ≠ place := by
      rintro rfl
      exact nonempty (List.isEmpty_iff.mp top)
    rw [if_pos top, if_neg different, if_pos top]
  · rw [if_neg top, if_neg top]

theorem ne_nil_of_isFileAt? {disk : Disk} {place : List Text} (isFile : disk.isFileAt? place = some true) :
    place ≠ [] := by
  rintro rfl
  cases isFile

theorem node?_rewritten_of_ne {disk : Disk} {place other : List Text} {bytes? : Option Bytes}
    (file : bytes?.isSome = true → disk.isFileAt? place = some true) (different : other ≠ place) :
    (disk.rewritten place bytes?).node? other = disk.node? other := by
  cases bytes? with
  | none => rfl
  | some bytes => rw [node?_rewritten (ne_nil_of_isFileAt? (file rfl)), if_neg different]

/-- What stands at the place that is written depends on what stood there only if nothing is written. -/
theorem contentAt_rewritten {one other : Disk} {place : List Text} {bytes? : Option Bytes}
    (file : bytes?.isSome = true → one.isFileAt? place = some true) (same : one.node? place = other.node? place) :
    (one.rewritten place bytes?).contentAt place = (other.rewritten place bytes?).contentAt place := by
  cases bytes? with
  | none => exact congrArg (Option.map Node.bytes?) same
  | some bytes =>
      have nonempty := ne_nil_of_isFileAt? (file rfl)
      rw [contentAt, contentAt, node?_rewritten nonempty, node?_rewritten nonempty, if_pos rfl, if_pos rfl]
      rfl

/-- New bytes in a file leave all files and directories in their places. -/
theorem alike_rewritten {disk : Disk} {place : List Text} {bytes? : Option Bytes}
    (file : bytes?.isSome = true → disk.isFileAt? place = some true) : (disk.rewritten place bytes?).Alike disk := by
  cases bytes? with
  | none => exact .refl disk
  | some bytes =>
      refine ⟨rfl, ?_⟩
      intro other
      by_cases same : other = place
      · rw [same, file rfl, isFileAt?, contentAt, node?_rewritten (ne_nil_of_isFileAt? (file rfl)), if_pos rfl]
        rfl
      · rw [isFileAt?, isFileAt?, contentAt, contentAt, node?_rewritten_of_ne file same]

end Disk

end AccessorLint
