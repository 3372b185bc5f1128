import Mathlib
import AccessorLint.Lint.Engine
import AccessorLint.Proofs.CacheEntries
import AccessorLint.Proofs.Places
set_option autoImplicit false

/-!
The work on one file, said without the cache.

As long as no entry passes for a file while it holds another text, a lookup gives the text of the file.  What a job
comes to then depends on the disk alone: on what stands at the path of the file, and on where files and directories
stand.  A step of the work reads and writes the file and its entry and nothing else.
-/

namespace AccessorLint

open Text (Bytes)

/-- The text of the file at an absolute path. -/
def Disk.text? (disk : Disk) (key : Path) : Option Text :=
  (disk.find? key).bind fun node => node.bytes?.map Text.decode

/-! ### Entries that hold what files contain -/

namespace Cache

/-- Whether an entry of a path that has the stamp and the size of the file holds the text of the file. -/
def IsCurrent (cache : Cache) (disk : Disk) (key : Path) : Prop :=
  ∀ entry bytes, (key, entry) ∈ cache.entries → disk.find? key = some (.file bytes entry.stamp) →
    entry.size = bytes.length → entry.content = Text.decode bytes

theorem isCurrent_of_absent {cache : Cache} {key : Path} (absent : ∀ held ∈ cache.entries, held.1 ≠ key)
    (disk : Disk) : cache.IsCurrent disk key := by
  intro entry bytes member
  exact absurd rfl (absent (key, entry) member)

theorem isCurrent_empty (capacity : Int) (disk : Disk) (key : Path) : (empty capacity).IsCurrent disk key := by
  apply isCurrent_of_absent
  intro held member
  cases member

theorem IsCurrent.of_subset {cache later : Cache} {disk laterDisk : Disk} {key : Path}
    (current : cache.IsCurrent disk key) (kept : ∀ entry, (key, entry) ∈ later.entries → (key, entry) ∈ cache.entries)
    (same : laterDisk.find? key = disk.find? key) : later.IsCurrent laterDisk key := by
  intro entry bytes member found
  rw [same] at found
  exact current entry bytes (kept entry member) found

theorem fetch_text {cache : Cache} {disk : Disk} {key : Path} (current : cache.IsCurrent disk key) :
    (cache.fetch disk key).1 = disk.text? key := by
  have fetched := fetch_fetched cache disk key
  generalize cache.fetch disk key = result at fetched ⊢
  unfold Disk.text?
  cases fetched with
  | missing nothing =>
      rw [nothing]
      rfl
  | directory found =>
      rw [found]
      rfl
  | hit bytes entry found size held =>
      rw [found]
      exact congrArg some (current entry bytes (mem_of_lookup held) found size)
  | read bytes stamp found stale =>
      rw [found]
      rfl

theorem fetch_current {cache : Cache} {disk : Disk} {key : Path} (current : cache.IsCurrent disk key) :
    (cache.fetch disk key).2.IsCurrent disk key := by
  have fetched := fetch_fetched cache disk key
  generalize cache.fetch disk key = result at fetched ⊢
  cases fetched with
  | missing nothing => exact current.of_subset (fun entry member => (mem_drop.mp member).1) rfl
  | directory found => exact current
  | hit bytes entry found size held =>
      apply current.of_subset _ rfl
      intro other member
      rcases List.mem_append.mp member with old | new
      · exact (mem_without.mp old).1
      · rw [List.mem_singleton.mp new]
        exact mem_of_lookup held
  | read bytes stamp found stale =>
      intro entry otherBytes member otherFound size
      rcases mem_store member with ⟨-, different⟩ | same
      · exact absurd rfl different
      · cases same
        rw [found] at otherFound
        cases otherFound
        rfl

/-- A lookup brings in no entry of another path. -/
theorem mem_of_mem_fetch {cache : Cache} {disk : Disk} {key : Path} {held : Path × CachedFile}
    (member : held ∈ (cache.fetch disk key).2.entries) (different : held.1 ≠ key) : held ∈ cache.entries := by
  have fetched := fetch_fetched cache disk key
  generalize cache.fetch disk key = result at fetched member
  cases fetched with
  | missing nothing => exact (mem_drop.mp member).1
  | directory found => exact member
  | hit bytes entry found size isHeld =>
      rcases List.mem_append.mp member with old | new
      · exact (mem_without.mp old).1
      · rw [List.mem_singleton.mp new] at different
        exact absurd rfl different
  | read bytes stamp found stale =>
      rcases mem_store member with ⟨old, -⟩ | rfl
      · exact old
      · exact absurd rfl different

end Cache

/-! ### Effects -/

/-- The absolute path by which the file at a path is read and held. -/
def Disk.keyOf (disk : Disk) (path : Text) : Path :=
  disk.absolute (.ofText path)

theorem Cache.get_eq (cache : Cache) (disk : Disk) (path : Text) :
    cache.get disk path =
      if path.contains (.glyph '\x00') then .error .nulByte else .ok (cache.fetch disk (disk.keyOf path)) :=
  rfl

/-- What a task on a file comes to: its result, and what it writes into the file, if anything. -/
structure Effect where
  result : Except TaskError Findings
  written : Option Bytes

namespace Disk

/-- What a task comes to that goes on with the text of a file. -/
def effect (disk : Disk) (path : Text) (proceed : Text → Effect) : Effect :=
  if path.contains (.glyph '\x00') then ⟨.error (.badPath .nulByte), none⟩
  else
    match disk.text? (disk.keyOf path) with
    | none => ⟨.ok ⟨[], 0⟩, none⟩
    | some text => proceed text

/-- A text is read only where a file stands. -/
theorem isFileAt?_of_text {disk : Disk} {path content : Text}
    (isContent : disk.text? (disk.keyOf path) = some content) :
    disk.isFileAt? (disk.keyOf path).parts = some true := by
  obtain ⟨node, found, read⟩ := Option.bind_eq_some_iff.mp isContent
  cases node with
  | directory => cases read
  | file bytes stamp =>
      have stands : disk.node? (disk.keyOf path).parts = some (.file bytes stamp) := node?_of_find? found
      rw [isFileAt?, contentAt, stands]
      rfl

/-- A task writes only where it has read a file. -/
theorem isFileAt?_of_effect {disk : Disk} {path : Text} {proceed : Text → Effect}
    (writes : (disk.effect path proceed).written.isSome = true) :
    disk.isFileAt? (disk.keyOf path).parts = some true := by
  unfold effect at writes
  split at writes
  · cases writes
  · split at writes
    · cases writes
    · rename_i text isText
      exact isFileAt?_of_text isText

end Disk

namespace Engine

/-- What correcting a file comes to, once it has been read. -/
def rewriteEffect (engine : Engine) (disk : Disk) (path text : Text) : Effect :=
  let corrected := correct engine.rules path text
  let findings : Findings := ⟨corrected.remaining, corrected.count⟩
  if corrected.content = text then ⟨.ok findings, none⟩
  else
    match disk.write (.ofText path) corrected.content.encode with
    | .error error => ⟨.error (.unwritable path error), none⟩
    | .ok _ => ⟨.ok findings, some corrected.content.encode⟩

/-- What a job on a file comes to, once the file has been read. -/
def readEffect (engine : Engine) (disk : Disk) (path text : Text) : Job → Effect
  | .check selected => ⟨.ok ⟨(check engine.rules (.ofContent path text) (selected path)).violations, 0⟩, none⟩
  | .correct => engine.rewriteEffect disk path text

/-- What a job on a file comes to. -/
def effect (engine : Engine) (job : Job) (disk : Disk) (path : Text) : Effect :=
  disk.effect path fun text => engine.readEffect disk path text job

theorem readEffect_eq (engine : Engine) {one other : Disk} (alike : one.Alike other) (path text : Text) (job : Job) :
    engine.readEffect one path text job = engine.readEffect other path text job := by
  cases job with
  | check selected => rfl
  | correct =>
      unfold readEffect rewriteEffect
      dsimp only
      split
      · rfl
      · rcases alike.write_cases (.ofText path) (correct engine.rules path text).content.encode with
          ⟨error, failed, otherFailed⟩ | ⟨later, otherLater, written, otherWritten⟩
        · rw [failed, otherFailed]
        · rw [written, otherWritten]

/-- A job either ends with the content of a file, or writes the file and has only the cache to clear. -/
theorem proceed_cases (engine : Engine) (path : Text) (workspace : Workspace) (content : Text) (job : Job) :
    ((engine.readEffect workspace.disk path content job).written = none ∧
      (engine.proceed path workspace content job).result =
        .finished (engine.readEffect workspace.disk path content job).result ∧
      (engine.proceed path workspace content job).workspace = workspace) ∨
    ∃ found bytes, engine.readEffect workspace.disk path content job = ⟨.ok found, some bytes⟩ ∧
      (engine.proceed path workspace content job).result = .written found ∧
      (engine.proceed path workspace content job).workspace =
        ⟨workspace.disk.rewritten (workspace.disk.keyOf path).parts (some bytes), workspace.cache⟩ := by
  cases job with
  | check selected => exact .inl ⟨rfl, rfl, rfl⟩
  | correct =>
      unfold readEffect rewriteEffect proceed
      dsimp only
      split
      · exact .inl ⟨rfl, rfl, rfl⟩
      · cases written : workspace.disk.write (.ofText path) (correct engine.rules path content).content.encode with
        | error error => exact .inl ⟨rfl, rfl, rfl⟩
        | ok later =>
            rw [Disk.write_ok written]
            exact .inr ⟨_, _, rfl, rfl, rfl⟩

/-! ### Stages -/

/-- What holds of the work on a file at a stage, whatever has been done to other files since a start.  Up to the
writing, the file is as it was, and no entry passes for it that holds another text. -/
inductive Reached (engine : Engine) (job : Job) (start : Disk) (path : Text) (workspace : Workspace) :
    Stage → Prop where
  | waiting (same : workspace.disk.node? (start.keyOf path).parts = start.node? (start.keyOf path).parts)
      (current : workspace.cache.IsCurrent workspace.disk (start.keyOf path)) :
      Reached engine job start path workspace .waiting
  | seen {node : Option Node} (plain : path.contains (.glyph '\x00') = false)
      (isNode : start.find? (start.keyOf path) = node)
      (same : workspace.disk.node? (start.keyOf path).parts = start.node? (start.keyOf path).parts)
      (current : workspace.cache.IsCurrent workspace.disk (start.keyOf path)) :
      Reached engine job start path workspace (.seen node)
  | holding {content : Text} (plain : path.contains (.glyph '\x00') = false)
      (isContent : start.text? (start.keyOf path) = some content)
      (same : workspace.disk.node? (start.keyOf path).parts = start.node? (start.keyOf path).parts)
      (current : workspace.cache.IsCurrent workspace.disk (start.keyOf path)) :
      Reached engine job start path workspace (.holding content)
  | written {found : Findings} {bytes : Bytes} (isEffect : engine.effect job start path = ⟨.ok found, some bytes⟩)
      (content : workspace.disk.contentAt (start.keyOf path).parts =
        (start.rewritten (start.keyOf path).parts (some bytes)).contentAt (start.keyOf path).parts) :
      Reached engine job start path workspace (.written found)
  | finished {result : Except TaskError Findings} (isResult : (engine.effect job start path).result = result)
      (content : workspace.disk.contentAt (start.keyOf path).parts =
        (start.rewritten (start.keyOf path).parts (engine.effect job start path).written).contentAt
          (start.keyOf path).parts)
      (current : workspace.cache.IsCurrent workspace.disk (start.keyOf path)) :
      Reached engine job start path workspace (.finished result)

/-- What the work on a file leaves alone: other places, and entries of other paths, which may only give way. -/
structure Frames (key : Path) (before after : Workspace) : Prop where
  alike : after.disk.Alike before.disk
  elsewhere : ∀ place, place ≠ key.parts → after.disk.node? place = before.disk.node? place
  others : ∀ held ∈ after.cache.entries, held.1 ≠ key → held ∈ before.cache.entries

theorem Frames.refl (key : Path) (workspace : Workspace) : Frames key workspace workspace :=
  ⟨.refl _, fun _ _ => rfl, fun _ member _ => member⟩

variable {engine : Engine} {job : Job} {start : Disk} {path : Text} {workspace : Workspace} {stage : Stage}

theorem effect_of_nul (nul : path.contains (.glyph '\x00') = true) :
    engine.effect job start path = ⟨.error (.badPath .nulByte), none⟩ := by
  rw [effect, Disk.effect, nul, if_pos rfl]

theorem effect_of_no_text (plain : path.contains (.glyph '\x00') = false)
    (noText : start.text? (start.keyOf path) = none) : engine.effect job start path = ⟨.ok ⟨[], 0⟩, none⟩ := by
  rw [effect, Disk.effect, plain, if_neg Bool.false_ne_true, noText]

theorem effect_of_text (plain : path.contains (.glyph '\x00') = false) {content : Text}
    (isContent : start.text? (start.keyOf path) = some content) :
    engine.effect job start path = engine.readEffect start path content job := by
  rw [effect, Disk.effect, plain, if_neg Bool.false_ne_true, isContent]

/-- What can be read of a file is known from the start. -/
theorem find?_of_same (alike : workspace.disk.Alike start)
    (same : workspace.disk.node? (start.keyOf path).parts = start.node? (start.keyOf path).parts) :
    workspace.disk.find? (start.keyOf path) = start.find? (start.keyOf path) := by
  have absolute : workspace.disk.absolute (.ofText path) = start.keyOf path := alike.absolute_eq _
  rw [← absolute] at same ⊢
  exact alike.find?_eq same

theorem advance_waiting (alike : workspace.disk.Alike start)
    (same : workspace.disk.node? (start.keyOf path).parts = start.node? (start.keyOf path).parts)
    (current : workspace.cache.IsCurrent workspace.disk (start.keyOf path)) :
    Reached engine job start path workspace (engine.advance job path workspace .waiting).result ∧
      (engine.advance job path workspace .waiting).workspace = workspace := by
  unfold advance
  cases plain : path.contains (.glyph '\x00') with
  | true =>
      refine ⟨.finished ?_ ?_ current, rfl⟩
      · rw [effect_of_nul plain]
      · rw [effect_of_nul plain]
        exact congrArg (Option.map Node.bytes?) same
  | false =>
      refine ⟨.seen plain ?_ same current, rfl⟩
      rw [← find?_of_same alike same, alike.absolute_eq]
      rfl

theorem fetchSeen_text (alike : workspace.disk.Alike start)
    (same : workspace.disk.node? (start.keyOf path).parts = start.node? (start.keyOf path).parts)
    (current : workspace.cache.IsCurrent workspace.disk (start.keyOf path)) :
    (workspace.cache.fetchSeen workspace.disk (start.keyOf path) (start.find? (start.keyOf path))).1 =
      start.text? (start.keyOf path) := by
  have text := Cache.fetch_text current
  rw [Cache.fetch, Disk.text?, find?_of_same alike same] at text
  exact text

theorem advance_seen (alike : workspace.disk.Alike start) (plain : path.contains (.glyph '\x00') = false)
    (same : workspace.disk.node? (start.keyOf path).parts = start.node? (start.keyOf path).parts)
    (current : workspace.cache.IsCurrent workspace.disk (start.keyOf path)) :
    let next := engine.advance job path workspace (.seen (start.find? (start.keyOf path)))
    Reached engine job start path next.workspace next.result ∧ next.workspace.disk = workspace.disk ∧
      ∀ held ∈ next.workspace.cache.entries, held.1 ≠ start.keyOf path → held ∈ workspace.cache.entries := by
  have key : workspace.disk.absolute (.ofText path) = start.keyOf path := alike.absolute_eq _
  have text := fetchSeen_text alike same current
  have stillCurrent := Cache.fetch_current current
  have others := @Cache.mem_of_mem_fetch workspace.cache workspace.disk (start.keyOf path)
  rw [Cache.fetch, find?_of_same alike same] at stillCurrent others
  intro next
  have nextEq : next = engine.advance job path workspace (.seen (start.find? (start.keyOf path))) := rfl
  rw [advance, key] at nextEq
  generalize workspace.cache.fetchSeen workspace.disk (start.keyOf path) (start.find? (start.keyOf path)) = fetched at *
  obtain ⟨content?, cache⟩ := fetched
  cases content? with
  | none =>
      rw [nextEq]
      refine ⟨.finished ?_ ?_ stillCurrent, rfl, fun held => others⟩
      · rw [effect_of_no_text plain text.symm]
      · rw [effect_of_no_text plain text.symm]
        exact congrArg (Option.map Node.bytes?) same
  | some content =>
      rw [nextEq]
      exact ⟨.holding plain text.symm same stillCurrent, rfl, fun held => others⟩

/-- A step of the work on a file leads to the next stage, and leaves everything else alone. -/
theorem advance_reached (alike : workspace.disk.Alike start) (reached : Reached engine job start path workspace stage) :
    Reached engine job start path (engine.advance job path workspace stage).workspace
        (engine.advance job path workspace stage).result ∧
      Frames (start.keyOf path) workspace (engine.advance job path workspace stage).workspace := by
  cases reached with
  | waiting same current =>
      obtain ⟨next, unchanged⟩ := @advance_waiting engine job start path workspace alike same current
      rw [unchanged]
      exact ⟨next, .refl _ _⟩
  | seen plain isNode same current =>
      subst isNode
      obtain ⟨next, unchanged, others⟩ := @advance_seen engine job start path workspace alike plain same current
      refine ⟨next, ?_, ?_, others⟩
      · rw [unchanged]
        exact .refl _
      · intro place _
        rw [unchanged]
  | @holding content plain isContent same current =>
      have isEffect : engine.effect job start path = engine.readEffect workspace.disk path content job := by
        rw [effect_of_text plain isContent, engine.readEffect_eq alike]
      rcases engine.proceed_cases path workspace content job with
        ⟨unwritten, result, unchanged⟩ | ⟨found, bytes, effectEq, result, rewritten⟩
      · rw [advance, result, unchanged]
        refine ⟨.finished (by rw [isEffect]) ?_ current, .refl _ _⟩
        rw [isEffect, unwritten]
        exact congrArg (Option.map Node.bytes?) same
      · have key : workspace.disk.keyOf path = start.keyOf path := alike.absolute_eq _
        have file : workspace.disk.isFileAt? (start.keyOf path).parts = some true := by
          rw [alike.kinds]
          exact Disk.isFileAt?_of_text isContent
        rw [advance, result, rewritten, key]
        refine ⟨.written (isEffect.trans effectEq) (Disk.contentAt_rewritten (fun _ => file) same), ?_⟩
        constructor
        · exact @Disk.alike_rewritten workspace.disk _ (some bytes) fun _ => file
        · intro place different
          exact @Disk.node?_rewritten_of_ne workspace.disk _ place (some bytes) (fun _ => file) different
        · exact fun _ member _ => member
  | @written found bytes isEffect content =>
      have key : workspace.disk.absolute (.ofText path) = start.keyOf path := alike.absolute_eq _
      rw [advance, Cache.invalidate, key]
      refine ⟨.finished (by rw [isEffect]) (by rw [isEffect]; exact content) ?_, .refl _, fun _ _ => rfl, ?_⟩
      · apply Cache.isCurrent_of_absent
        intro held member
        exact (Cache.mem_drop.mp member).2
      · intro held member _
        exact (Cache.mem_drop.mp member).1
  | finished isResult content current => exact ⟨.finished isResult content current, .refl _ _⟩

end Engine

/-- The number of steps that are left at a stage at most. -/
def Stage.left : Stage → Nat
  | waiting => 4
  | seen _ => 3
  | holding _ => 2
  | written _ => 1
  | finished _ => 0

theorem Stage.finished_of_left {stage : Stage} (none : stage.left = 0) : ∃ result, stage = .finished result := by
  cases stage with
  | finished result => exact ⟨result, rfl⟩
  | waiting => cases none
  | seen node => cases none
  | holding content => cases none
  | written found => cases none

namespace Engine

theorem advance_left (engine : Engine) (job : Job) (path : Text) (workspace : Workspace) (stage : Stage) :
    (engine.advance job path workspace stage).result.left ≤ stage.left - 1 := by
  cases stage with
  | waiting =>
      rw [advance]
      split
      · exact Nat.zero_le _
      · exact le_rfl
  | seen node =>
      rw [advance]
      split
      · exact Nat.zero_le _
      · exact le_rfl
  | holding content =>
      rw [advance]
      rcases engine.proceed_cases path workspace content job with ⟨-, result, -⟩ | ⟨found, bytes, -, result, -⟩
      · rw [result]
        exact Nat.zero_le _
      · rw [result]
        exact le_rfl
  | written found => exact le_rfl
  | finished result => exact le_rfl

/-! ### Work without a break -/

variable {engine : Engine} {job : Job} {start : Disk} {path : Text} {workspace : Workspace} {stage : Stage}

/-- The disk while no other file is worked on. -/
def diskAt (engine : Engine) (job : Job) (start : Disk) (path : Text) : Stage → Disk
  | .written _ | .finished _ => start.rewritten (start.keyOf path).parts (engine.effect job start path).written
  | _ => start

theorem diskAt_alike (engine : Engine) (job : Job) (start : Disk) (path : Text) (stage : Stage) :
    (engine.diskAt job start path stage).Alike start := by
  have rewritten : (start.rewritten (start.keyOf path).parts (engine.effect job start path).written).Alike start :=
    Disk.alike_rewritten fun writes => Disk.isFileAt?_of_effect writes
  cases stage with
  | waiting => exact .refl start
  | seen node => exact .refl start
  | holding content => exact .refl start
  | written found => exact rewritten
  | finished result => exact rewritten

theorem advance_disk (reached : Reached engine job start path workspace stage)
    (exact : workspace.disk = engine.diskAt job start path stage) :
    (engine.advance job path workspace stage).workspace.disk =
      engine.diskAt job start path (engine.advance job path workspace stage).result := by
  have alike : workspace.disk.Alike start := exact ▸ engine.diskAt_alike job start path stage
  cases reached with
  | waiting same current =>
      unfold advance
      cases plain : path.contains (.glyph '\x00') with
      | true =>
          rw [if_pos rfl, diskAt, effect_of_nul plain]
          exact exact
      | false => exact exact
  | seen plain isNode same current =>
      subst isNode
      have text := fetchSeen_text alike same current
      rw [advance, alike.absolute_eq]
      change (workspace.cache.fetchSeen workspace.disk (start.absolute (.ofText path)) _).1 = _ at text
      generalize workspace.cache.fetchSeen workspace.disk (start.absolute (.ofText path))
        (start.find? (start.keyOf path)) = fetched at *
      obtain ⟨content?, cache⟩ := fetched
      cases content? with
      | none =>
          rw [diskAt, effect_of_no_text plain text.symm]
          exact exact
      | some content => exact exact
  | @holding content plain isContent same current =>
      have isEffect : engine.effect job start path = engine.readEffect workspace.disk path content job := by
        rw [effect_of_text plain isContent, engine.readEffect_eq alike]
      rw [advance]
      rcases engine.proceed_cases path workspace content job with
        ⟨unwritten, result, unchanged⟩ | ⟨found, bytes, effectEq, result, rewritten⟩
      · rw [result, unchanged, diskAt, isEffect, unwritten]
        exact exact
      · rw [result, rewritten, diskAt, isEffect, effectEq, exact]
        rfl
  | written isEffect content => exact exact
  | finished isResult content current => exact exact

theorem advanceBy_alone (steps : Nat) {done : Processed Stage}
    (reached : Reached engine job start path done.workspace done.result)
    (exact : done.workspace.disk = engine.diskAt job start path done.result) :
    let last := engine.advanceBy job path steps done
    Reached engine job start path last.workspace last.result ∧
      last.workspace.disk = engine.diskAt job start path last.result ∧ last.result.left ≤ done.result.left - steps := by
  induction steps generalizing done with
  | zero => exact ⟨reached, exact, le_rfl⟩
  | succ steps ih =>
      have alike : done.workspace.disk.Alike start := exact ▸ engine.diskAt_alike job start path done.result
      have step := engine.advance_left job path done.workspace done.result
      generalize nextIs : engine.advance job path done.workspace done.result = next at step
      have reachedNext := (advance_reached alike reached).1
      have exactNext := advance_disk reached exact
      rw [nextIs] at reachedNext exactNext
      obtain ⟨last, lastDisk, left⟩ := @ih { next with notices := done.notices ++ next.notices } reachedNext exactNext
      rw [advanceBy, nextIs]
      exact ⟨last, lastDisk, left.trans (by dsimp only; omega)⟩

/-- A visit that comes to an effect and leaves no entry that passes for the file while it holds another text. -/
structure Realizes (visit : Visit) (start : Disk) (path : Text) (effect : Effect) : Prop where
  result : visit.result = effect.result
  disk : visit.workspace.disk = start.rewritten (start.keyOf path).parts effect.written
  current : visit.workspace.cache.IsCurrent visit.workspace.disk (start.keyOf path)

theorem process_realizes (engine : Engine) (job : Job)
    (current : workspace.cache.IsCurrent workspace.disk (workspace.disk.keyOf path)) :
    Realizes (engine.process job workspace path) workspace.disk path (engine.effect job workspace.disk path) := by
  obtain ⟨reached, disk, left⟩ := @advanceBy_alone engine job workspace.disk path maxSteps ⟨.waiting, workspace, []⟩
    (.waiting rfl current) rfl
  unfold process
  dsimp only
  generalize engine.advanceBy job path maxSteps ⟨.waiting, workspace, []⟩ = last at *
  obtain ⟨result, isFinished⟩ := Stage.finished_of_left (Nat.le_zero.mp left)
  rw [isFinished] at reached disk
  cases reached with
  | finished isResult content stillCurrent =>
      refine ⟨?_, disk, stillCurrent⟩
      rw [isFinished, isResult]
      rfl

end Engine

end AccessorLint
