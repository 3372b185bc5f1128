import Mathlib
import AccessorLint.Proofs.Visits
set_option autoImplicit false

/-!
Files processed together.

Files at different places do not meet: a step writes only the file that has been read, and what it does to the cache
leaves no entry that would pass for another file with another text.  Where nothing is written, not even work on one file
under several names meets.  So each file gives what it gives alone, whatever the cache held, whichever files come before
it and however the steps are interleaved.
-/

namespace AccessorLint

open Text (Bytes)

namespace Engine

variable {engine : Engine} {job : Job} {start : Disk} {path : Text} {before after : Workspace} {stage : Stage}

/-! ### Steps on other files -/

/-- Whether a change leaves alone what the work on the file at an absolute path rests on. -/
structure Keeps (key : Path) (before after : Workspace) : Prop where
  node : after.disk.node? key.parts = before.disk.node? key.parts
  current : before.cache.IsCurrent before.disk key → after.cache.IsCurrent after.disk key

theorem Reached.keep (reached : Reached engine job start path before stage)
    (keeps : Keeps (start.keyOf path) before after) : Reached engine job start path after stage := by
  have content : after.disk.contentAt (start.keyOf path).parts = before.disk.contentAt (start.keyOf path).parts :=
    congrArg (Option.map Node.bytes?) keeps.node
  cases reached with
  | waiting same current => exact .waiting (keeps.node.trans same) (keeps.current current)
  | seen plain isNode same current => exact .seen plain isNode (keeps.node.trans same) (keeps.current current)
  | holding plain isContent same current =>
      exact .holding plain isContent (keeps.node.trans same) (keeps.current current)
  | written isEffect isWritten => exact .written isEffect (content.trans isWritten)
  | finished isResult isWritten current =>
      exact .finished isResult (content.trans isWritten) (keeps.current current)

/-- A step on a file at another place. -/
theorem Frames.keeps {other : Path} (frames : Frames other before after) (alike : before.disk.Alike start)
    (apart : (start.keyOf path).parts ≠ other.parts) : Keeps (start.keyOf path) before after := by
  have key : before.disk.keyOf path = start.keyOf path := alike.absolute_eq _
  rw [← key] at apart ⊢
  refine ⟨frames.elsewhere _ apart, fun current => current.of_subset ?_ ?_⟩
  · intro entry member
    exact frames.others _ member fun same => apart (congrArg Path.parts same)
  · exact find?_of_same frames.alike (frames.elsewhere _ apart)

theorem advance_check_disk (engine : Engine) (selected : Text → List Int) (path : Text) (workspace : Workspace)
    (stage : Stage) : (engine.advance (.check selected) path workspace stage).workspace.disk = workspace.disk := by
  cases stage with
  | waiting =>
      rw [advance]
      split
      · rfl
      · rfl
  | seen node =>
      rw [advance]
      split
      · rfl
      · rfl
  | holding content => rfl
  | written found => rfl
  | finished result => rfl

theorem effect_check_written (engine : Engine) (selected : Text → List Int) (disk : Disk) (path : Text) :
    (engine.effect (.check selected) disk path).written = none := by
  unfold effect Disk.effect
  split
  · rfl
  · split
    · rfl
    · rfl

theorem Reached.current_of_check {selected : Text → List Int}
    (reached : Reached engine (.check selected) start path before stage) :
    before.cache.IsCurrent before.disk (start.keyOf path) := by
  cases reached with
  | waiting same current => exact current
  | seen plain isNode same current => exact current
  | holding plain isContent same current => exact current
  | written isEffect content =>
      have writesNothing := engine.effect_check_written selected start path
      rw [isEffect] at writesNothing
      cases writesNothing
  | finished isResult content current => exact current

/-- A step of checking a file, of whichever file. -/
theorem advance_check_keeps {selected : Text → List Int} (alike : before.disk.Alike start)
    (reached : Reached engine (.check selected) start path before stage) (key : Path) :
    Keeps key before (engine.advance (.check selected) path before stage).workspace := by
  obtain ⟨next, frames⟩ := advance_reached alike reached
  have sameDisk := engine.advance_check_disk selected path before stage
  refine ⟨by rw [sameDisk], fun current => ?_⟩
  by_cases same : key = start.keyOf path
  · rw [same]
    exact next.current_of_check
  · exact current.of_subset (fun entry member => frames.others _ member same) (by rw [sameDisk])

/-! ### Turns -/

/-- Whether files lead to places of their own. -/
def Apart (disk : Disk) (files : List Text) : Prop :=
  files.Pairwise fun one other => (disk.keyOf one).parts ≠ (disk.keyOf other).parts

theorem Apart.perm {disk : Disk} {files order : List Text} (apart : Apart disk files) (permuted : order.Perm files) :
    Apart disk order :=
  (permuted.pairwise_iff fun different => different.symm).mpr apart

theorem Apart.parts_ne {disk : Disk} {files : List Text} (apart : Apart disk files) {index other : Nat}
    {path otherPath : Text} (isPath : files[index]? = some path) (isOther : files[other]? = some otherPath)
    (different : index ≠ other) : (disk.keyOf otherPath).parts ≠ (disk.keyOf path).parts := by
  obtain ⟨within, rfl⟩ := List.getElem?_eq_some_iff.mp isPath
  obtain ⟨otherWithin, rfl⟩ := List.getElem?_eq_some_iff.mp isOther
  have separate := List.pairwise_iff_getElem.mp apart
  rcases Nat.lt_or_gt_of_ne different with earlier | later
  · exact (separate index other within otherWithin earlier).symm
  · exact separate other index otherWithin within later

/-- Whether work on files cannot meet: they are only checked, or they lead to places of their own. -/
def Clear (disk : Disk) (files : List Text) : Job → Prop
  | .check _ => True
  | .correct => Apart disk files

/-- What holds of the work on files after any turns, in terms of the disk at the start. -/
structure Sound (engine : Engine) (job : Job) (start : Disk) (files : List Text) (done : Together) : Prop where
  paths : done.result.map Prod.fst = files
  reached : ∀ {index : Nat} {path : Text} {stage : Stage}, done.result[index]? = some (path, stage) →
    Reached engine job start path done.workspace stage
  alike : done.workspace.disk.Alike start
  elsewhere : ∀ place, (∀ path ∈ files, place ≠ (start.keyOf path).parts) →
    done.workspace.disk.node? place = start.node? place

variable {files : List Text} {done : Together}

theorem Sound.isPath (sound : Sound engine job start files done) {index : Nat}
    (found : done.result[index]? = some (path, stage)) : files[index]? = some path := by
  rw [← sound.paths, List.getElem?_map, found]
  rfl

/-- A turn of one file keeps what the work on another rests on. -/
theorem Sound.keeps (sound : Sound engine job start files done) (clear : Clear start files job) {index other : Nat}
    {otherPath : Text} {otherStage : Stage} (found : done.result[index]? = some (path, stage))
    (otherFound : done.result[other]? = some (otherPath, otherStage)) (different : index ≠ other) :
    Keeps (start.keyOf otherPath) done.workspace (engine.advance job path done.workspace stage).workspace := by
  cases job with
  | check selected => exact advance_check_keeps sound.alike (sound.reached found) _
  | correct =>
      have apart := Apart.parts_ne clear (sound.isPath found) (sound.isPath otherFound) different
      exact (advance_reached sound.alike (sound.reached found)).2.keeps sound.alike apart

theorem turn_paths (engine : Engine) (job : Job) (done : Together) (index : Nat) :
    (engine.turn job done index).result.map Prod.fst = done.result.map Prod.fst := by
  unfold turn
  split
  · rfl
  · rename_i path stage found
    have within := (List.getElem?_eq_some_iff.mp found).1
    apply List.ext_getElem?
    intro other
    rw [List.map_set, List.getElem?_set]
    split
    · rename_i same
      rw [← same, List.getElem?_map, found, List.length_map, if_pos within]
      rfl
    · rfl

theorem turn_sound (clear : Clear start files job) (sound : Sound engine job start files done) (index : Nat) :
    Sound engine job start files (engine.turn job done index) := by
  have paths := engine.turn_paths job done index
  unfold turn at paths ⊢
  cases found : done.result[index]? with
  | none => exact sound
  | some file =>
      obtain ⟨path, stage⟩ := file
      obtain ⟨next, frames⟩ := advance_reached sound.alike (sound.reached found)
      have within := (List.getElem?_eq_some_iff.mp found).1
      rw [found] at paths
      constructor
      · exact paths.trans sound.paths
      · intro other otherPath otherStage otherFound
        rw [List.getElem?_set] at otherFound
        by_cases same : index = other
        · rw [if_pos same, if_pos within] at otherFound
          cases otherFound
          exact next
        · rw [if_neg same] at otherFound
          exact (sound.reached otherFound).keep (sound.keeps clear found otherFound same)
      · exact frames.alike.trans sound.alike
      · intro place away
        rw [frames.elsewhere place (away path (List.mem_of_getElem? (sound.isPath found)))]
        exact sound.elsewhere place away

theorem turns_sound (clear : Clear start files job) (sound : Sound engine job start files done) (turns : List Nat) :
    Sound engine job start files (turns.foldl (engine.turn job) done) :=
  List.foldlRecOn turns (engine.turn job) sound fun _ sound index _ => turn_sound clear sound index

theorem sound_at_start (engine : Engine) (job : Job) (workspace : Workspace) {files : List Text}
    (current : ∀ path ∈ files, workspace.cache.IsCurrent workspace.disk (workspace.disk.keyOf path)) :
    Sound engine job workspace.disk files ⟨files.map fun path => (path, .waiting), workspace, []⟩ := by
  constructor
  · rw [List.map_map]
    exact List.map_id files
  · intro index path stage found
    obtain ⟨member, isFile, same⟩ := List.mem_map.mp (List.mem_of_getElem? found)
    cases same
    exact .waiting rfl (current path isFile)
  · exact .refl workspace.disk
  · intro place _
    rfl

/-! ### Turns that are left -/

/-- The number of turns that the file at an index needs at most. -/
def leftAt (done : Together) (index : Nat) : Nat :=
  done.result[index]?.elim 0 fun file => file.2.left

theorem turn_leftAt (engine : Engine) (job : Job) (done : Together) (index other : Nat) :
    leftAt (engine.turn job done index) other ≤ leftAt done other - if index = other then 1 else 0 := by
  unfold turn leftAt
  split
  · rename_i missing
    split
    · rename_i same
      rw [← same, missing]
      exact le_rfl
    · exact le_rfl
  · rename_i path stage found
    have within := (List.getElem?_eq_some_iff.mp found).1
    rw [List.getElem?_set]
    by_cases same : index = other
    · rw [if_pos same, if_pos within, if_pos same, ← same, found]
      exact engine.advance_left job path done.workspace stage
    · rw [if_neg same, if_neg same]
      exact le_rfl

theorem turns_leftAt (engine : Engine) (job : Job) (turns : List Nat) (done : Together) (index : Nat) :
    leftAt (turns.foldl (engine.turn job) done) index ≤ leftAt done index - turns.count index := by
  induction turns generalizing done with
  | nil => exact le_rfl
  | cons turn turns ih =>
      have step := engine.turn_leftAt job done turn index
      have later := ih (engine.turn job done turn)
      rw [List.foldl_cons, List.count_cons]
      simp only [beq_iff_eq]
      omega

theorem maxSteps_le_count_oneByOne {count index : Nat} (within : index < count) :
    maxSteps ≤ (oneByOne count).count index := by
  obtain ⟨earlier, later, split⟩ := List.append_of_mem (List.mem_range.mpr within)
  rw [oneByOne, split, List.flatMap_append, List.flatMap_cons, List.count_append, List.count_append,
    List.count_replicate_self]
  omega

theorem leftAt_le (done : Together) (index : Nat) : leftAt done index ≤ maxSteps := by
  unfold leftAt
  cases done.result[index]? with
  | none => exact Nat.zero_le _
  | some file =>
      change file.2.left ≤ maxSteps
      unfold Stage.left
      split
      all_goals decide

theorem leftAt_runAll (engine : Engine) (job : Job) (schedule : List Nat) (workspace : Workspace) {files : List Text}
    {index : Nat} (within : index < files.length) : leftAt (engine.runAll job schedule workspace files) index = 0 := by
  rw [runAll, List.foldl_append]
  apply Nat.le_zero.mp
  apply (engine.turns_leftAt job (oneByOne files.length) _ index).trans
  rw [Nat.sub_eq_zero_of_le ((leftAt_le _ index).trans (maxSteps_le_count_oneByOne within))]

/-! ### All files -/

theorem runAll_sound (clear : Clear before.disk files job) (schedule : List Nat)
    (current : ∀ path ∈ files, before.cache.IsCurrent before.disk (before.disk.keyOf path)) :
    Sound engine job before.disk files (engine.runAll job schedule before files) :=
  turns_sound clear (engine.sound_at_start job before current) _

/-- However the turns go, each file comes to its effect on the disk at the start. -/
theorem runAll_result (clear : Clear before.disk files job) (schedule : List Nat)
    (current : ∀ path ∈ files, before.cache.IsCurrent before.disk (before.disk.keyOf path)) :
    (engine.runAll job schedule before files).result =
      files.map fun path => (path, .finished (engine.effect job before.disk path).result) := by
  have sound := @runAll_sound engine job before files clear schedule current
  have sameLength := congrArg List.length sound.paths
  rw [List.length_map] at sameLength
  apply List.ext_getElem
  · rw [sameLength, List.length_map]
  · intro index within _
    have none := engine.leftAt_runAll job schedule before (sameLength ▸ within)
    have found := List.getElem?_eq_getElem within
    generalize (engine.runAll job schedule before files).result[index] = file at found ⊢
    obtain ⟨path, stage⟩ := file
    rw [leftAt, found] at none
    obtain ⟨result, rfl⟩ := Stage.finished_of_left none
    have isPath := (List.getElem?_eq_some_iff.mp (sound.isPath found)).2
    rw [List.getElem_map, isPath]
    cases sound.reached found with
    | finished isResult content current => rw [isResult]

theorem turns_check_disk (engine : Engine) (selected : Text → List Int) (turns : List Nat) (done : Together) :
    (turns.foldl (engine.turn (.check selected)) done).workspace.disk = done.workspace.disk := by
  induction turns generalizing done with
  | nil => rfl
  | cons index turns ih =>
      rw [List.foldl_cons, ih, turn]
      split
      · rfl
      · exact engine.advance_check_disk selected _ done.workspace _

/-- Whether work on files in some order has come to what each of them gives alone. -/
structure AsAlone (alone : Text → Visit) (start : Disk) (files order : List Text) (done : Together)
    (found : Findings) : Prop where
  results : done.result = order.map fun path => (path, .finished (alone path).result)
  violations : found.violations = order.flatMap fun path => (Stage.finished (alone path).result).found.violations
  corrected : found.corrected = (files.map fun path => (Stage.finished (alone path).result).found.corrected).sum
  written : ∀ path ∈ files, done.workspace.disk.contentAt (start.keyOf path).parts =
    (alone path).workspace.disk.contentAt (start.keyOf path).parts
  untouched : ∀ place, (∀ path ∈ files, place ≠ (start.keyOf path).parts) →
    done.workspace.disk.contentAt place = start.contentAt place

theorem runAll_asAlone {alone : Text → Visit} {order : List Text} (clear : Clear before.disk order job)
    (schedule : List Nat)
    (current : ∀ path ∈ files, before.cache.IsCurrent before.disk (before.disk.keyOf path))
    (permuted : order.Perm files)
    (isAlone : ∀ path, Realizes (alone path) before.disk path (engine.effect job before.disk path)) :
    AsAlone alone before.disk files order (engine.runAll job schedule before order)
      (foundIn (engine.runAll job schedule before order).result) := by
  have currentInOrder : ∀ path ∈ order, before.cache.IsCurrent before.disk (before.disk.keyOf path) :=
    fun path member => current path (permuted.mem_iff.mp member)
  have sound := @runAll_sound engine job before order clear schedule currentInOrder
  have results : (engine.runAll job schedule before order).result =
      order.map fun path => (path, .finished (alone path).result) := by
    simp only [runAll_result clear schedule currentInOrder, (isAlone _).result]
  constructor
  · exact results
  · rw [results, foundIn, List.flatMap_map]
  · rw [results, foundIn, List.foldr_map, ← (permuted.map _).sum_eq, List.sum_eq_foldr, List.foldr_map]
  · intro path member
    obtain ⟨index, isPath⟩ := List.mem_iff_getElem?.mp (permuted.mem_iff.mpr member)
    have found : (engine.runAll job schedule before order).result[index]? =
        some (path, .finished (alone path).result) := by
      rw [results, List.getElem?_map, isPath]
      rfl
    rw [(isAlone path).disk]
    cases sound.reached found with
    | finished isResult content current => exact content
  · intro place away
    have untouched := sound.elsewhere place fun path member => away path (permuted.mem_iff.mp member)
    exact congrArg (Option.map Node.bytes?) untouched

theorem AsAlone.contentAt_eq {alone : Text → Visit} {order otherOrder : List Text} {done other : Together}
    {found otherFound : Findings} (one : AsAlone alone start files order done found)
    (two : AsAlone alone start files otherOrder other otherFound) (place : List Text) :
    done.workspace.disk.contentAt place = other.workspace.disk.contentAt place := by
  by_cases listed : ∃ path ∈ files, place = (start.keyOf path).parts
  · obtain ⟨path, member, rfl⟩ := listed
    rw [one.written path member, two.written path member]
  · have elsewhere : ∀ path ∈ files, place ≠ (start.keyOf path).parts :=
      fun path member same => listed ⟨path, member, same⟩
    rw [one.untouched place elsewhere, two.untouched place elsewhere]

end Engine

/-- Neither the cache nor the order nor the interleaving matters.  As long as no entry passes for a file of which it
holds another text, files give together what each of them gives alone with an empty cache, in any order and however
their steps are interleaved.  Checking leaves the disk alone; correcting asks for files at places of their own, and
leaves the same contents in every order and interleaving. -/
theorem files_are_processed_independently (engine : Engine) (selected : Text → List Int) {workspace : Workspace}
    {files order : List Text}
    (current : ∀ path ∈ files, workspace.cache.IsCurrent workspace.disk (workspace.disk.keyOf path))
    (capacity : Int) (permuted : order.Perm files) (schedule : List Nat) :
    Engine.AsAlone (fun path => engine.checkFile ⟨workspace.disk, .empty capacity⟩ path (selected path)) workspace.disk
        files order (engine.runAll (.check selected) schedule workspace order)
        (engine.checkFiles workspace order selected schedule).result ∧
      (engine.checkFiles workspace order selected schedule).workspace.disk = workspace.disk ∧
      (Engine.Apart workspace.disk files →
        Engine.AsAlone (engine.correctFile ⟨workspace.disk, .empty capacity⟩) workspace.disk files order
            (engine.runAll .correct schedule workspace order) (engine.correctFiles workspace order schedule).result ∧
          ∀ otherSchedule place, (engine.correctFiles workspace order schedule).workspace.disk.contentAt place =
            (engine.correctFiles workspace files otherSchedule).workspace.disk.contentAt place) := by
  have alone : ∀ job path, Engine.Realizes (engine.process job ⟨workspace.disk, .empty capacity⟩ path) workspace.disk
      path (engine.effect job workspace.disk path) :=
    fun job path => engine.process_realizes job (Cache.isCurrent_empty capacity workspace.disk _)
  refine ⟨?_, engine.turns_check_disk selected _ _, fun apart => ?_⟩
  · have checked : ∀ path, Engine.Realizes (engine.checkFile ⟨workspace.disk, .empty capacity⟩ path (selected path))
        workspace.disk path (engine.effect (.check selected) workspace.disk path) :=
      fun path => alone (.check fun _ => selected path) path
    exact @Engine.runAll_asAlone engine (.check selected) workspace files _ order trivial schedule current permuted
      checked
  · have corrected := @Engine.runAll_asAlone engine .correct workspace files _ order (apart.perm permuted) schedule
      current permuted (alone .correct)
    refine ⟨corrected, fun otherSchedule place => ?_⟩
    have inOrder := @Engine.runAll_asAlone engine .correct workspace files _ files apart otherSchedule current
      (.refl files) (alone .correct)
    exact corrected.contentAt_eq inOrder place

/-- The cache holds one file and has no room for both.  Corrected the other way round and in turns, both files come out
the same. -/
theorem files_corrected_in_turns :
    let cart : Bytes := Text.encode "def get_x(a)\nend\n"
    let shop : Bytes := Text.encode "def get_y(a)\nend\n"
    let disk : Disk := ⟨[(["srv"], .directory), (["srv", "cart.rb"], .file cart 7),
      (["srv", "shop.rb"], .file shop 8)], [], 9⟩
    let cache : Cache := ⟨[(disk.keyOf "/srv/cart.rb", ⟨Text.decode cart, 7, cart.length⟩)], 20, cart.length, 0, 1⟩
    let files : List Text := ["/srv/cart.rb", "/srv/shop.rb"]
    let schedule : List Nat := [1, 0, 0, 1, 1, 0, 0, 1]
    ∃ engine notices, (Engine.empty true).loadBuiltin (.ofText "/srv/shop") .default = .ok (engine, notices) ∧
      Engine.Apart disk files ∧ (∀ path ∈ files, cache.IsCurrent disk (disk.keyOf path)) ∧
      (engine.correctFiles ⟨disk, cache⟩ files.reverse schedule).result.corrected = 2 ∧
      ∀ place, (engine.correctFiles ⟨disk, cache⟩ files.reverse schedule).workspace.disk.contentAt place =
        (engine.correctFiles ⟨disk, cache⟩ files []).workspace.disk.contentAt place := by
  intro cart shop disk cache files schedule
  have apart : Engine.Apart disk files := by
    unfold Engine.Apart
    decide +kernel
  have readable : disk.find? (disk.keyOf "/srv/cart.rb") = some (.file cart 7) := by decide +kernel
  have current : ∀ path ∈ files, cache.IsCurrent disk (disk.keyOf path) := by
    intro path _ entry bytes member found _
    obtain ⟨same, rfl⟩ := Prod.mk.inj (List.mem_singleton.mp member)
    rw [same, readable] at found
    cases found
    rfl
  obtain ⟨engine, notices, loaded, alone⟩ : ∃ engine notices,
      (Engine.empty true).loadBuiltin (.ofText "/srv/shop") .default = .ok (engine, notices) ∧
        (files.map fun path =>
          (Stage.finished (engine.correctFile ⟨disk, .empty 0⟩ path).result).found.corrected).sum = 2 :=
    ⟨_, _, rfl, by decide +kernel⟩
  obtain ⟨-, -, correcting⟩ :=
    @files_are_processed_independently engine (fun _ => []) ⟨disk, cache⟩ files files.reverse current 0
      files.reverse_perm schedule
  obtain ⟨corrected, contents⟩ := correcting apart
  exact ⟨engine, notices, loaded, apart, current, corrected.corrected.trans alone, contents []⟩

/-- Two absolute paths that lead to one file.  The second finds the file corrected, so the total is less than what the
two give alone. -/
theorem one_file_under_two_paths_is_corrected_once :
    let disk : Disk := ⟨[(["srv"], .directory),
      (["srv", "cart.rb"], .file (Text.encode "def get_x(a)\nend\n") 7)], [], 9⟩
    let workspace : Workspace := ⟨disk, .empty 20⟩
    let files : List Text := ["/srv/cart.rb", "//srv/cart.rb"]
    files.Nodup ∧ (∀ path ∈ files, (Path.ofText path).isAbsolute = true) ∧
      (∀ path ∈ files, workspace.cache.IsCurrent disk (disk.keyOf path)) ∧
      ∃ engine notices, (Engine.empty false).loadBuiltin (.ofText "/srv/shop") .default = .ok (engine, notices) ∧
        (files.map fun path =>
          (Stage.finished (engine.correctFile workspace path).result).found.corrected).sum = 2 ∧
        (engine.correctFiles workspace files []).result.corrected = 1 := by
  intro disk workspace files
  refine ⟨by decide +kernel, by decide +kernel, fun path _ => Cache.isCurrent_empty 20 disk _, _, _, rfl, ?_, ?_⟩
  · decide +kernel
  · decide +kernel

end AccessorLint
