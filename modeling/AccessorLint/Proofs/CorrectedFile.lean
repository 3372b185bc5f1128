import Mathlib
import AccessorLint.Proofs.Encoding
import AccessorLint.Proofs.Pass
import AccessorLint.Proofs.Visits
set_option autoImplicit false

/-!
A corrected file and its bytes.

Renaming exchanges characters for characters and never brings stray bytes together, so a corrected text can be read
back from the bytes that are written.  What is left of its violations is what a check finds in it.
-/

namespace AccessorLint

open Text (Bytes StraysApart)

/-! ### Stray bytes -/

theorem Symbol.char?_of_isWord {symbol : Symbol} (word : symbol.isWord = true) : symbol.char?.isSome = true := by
  cases symbol with
  | glyph char => rfl
  | stray low => cases word

namespace Naming

/-- A new name has the characters of the old name and some of its own. -/
theorem Renaming.glyphs {name newName : Text} (renames : Renaming name newName)
    (glyphs : ∀ symbol ∈ name, symbol.char?.isSome = true) : ∀ symbol ∈ newName, symbol.char?.isSome = true := by
  have joined : ∀ {left right : Text}, (∀ symbol ∈ left, symbol.char?.isSome = true) →
      (∀ symbol ∈ right, symbol.char?.isSome = true) → ∀ symbol ∈ left ++ right, symbol.char?.isSome = true := by
    intro left right ofLeft ofRight symbol member
    rcases List.mem_append.mp member with before | after
    · exact ofLeft symbol before
    · exact ofRight symbol after
  cases renames with
  | getter subject =>
      apply joined
      · exact fun symbol member => glyphs symbol (List.mem_append_right _ member)
      · decide
  | setter subject =>
      apply joined
      · exact fun symbol member => glyphs symbol (List.mem_append_right _ member)
      · decide
  | apiSetter subject =>
      apply joined
      · decide
      · exact fun symbol member => glyphs symbol (List.mem_append_right _ member)

theorem Renaming.new_ne_nil {name newName : Text} (renames : Renaming name newName) : newName ≠ [] := by
  cases renames with
  | getter subject => exact List.append_ne_nil_of_right_ne_nil _ (List.cons_ne_nil _ _)
  | setter subject => exact List.append_ne_nil_of_right_ne_nil _ (List.cons_ne_nil _ _)
  | apiSetter subject => exact List.append_ne_nil_of_left_ne_nil (List.cons_ne_nil _ _) _

theorem Site.straysApart {text left name right : Text} {edit : Edit} (site : Site text edit left name right)
    (apart : StraysApart text) : StraysApart (EditBuffer.apply text edit) := by
  have glyphs : ∀ symbol ∈ name, symbol.char?.isSome = true := fun symbol member =>
    Symbol.char?_of_isWord (site.identifier.words symbol member)
  rw [site.textEq, Text.straysApart_exchange site.identifier.ne_nil glyphs] at apart
  rw [site.applied, Text.straysApart_exchange site.renames.new_ne_nil (site.renames.glyphs glyphs)]
  exact apart

theorem Renamed.straysApart {count : Nat} {text out : Text} (renamed : Renamed count text out)
    (apart : StraysApart text) : StraysApart out := by
  induction renamed with
  | refl text => exact apart
  | step site later ih => exact ih (site.straysApart apart)

end Naming

/-! ### The file -/

/-- A file that was read and is rewritten has the new bytes. -/
theorem Disk.find?_rewritten {disk : Disk} {path : Path} {old : Bytes} {stamp : Int}
    (found : disk.find? (disk.absolute path) = some (.file old stamp)) (bytes : Bytes) :
    (disk.rewritten (disk.absolute path).parts (some bytes)).find? (disk.absolute path) =
      some (.file bytes disk.now) := by
  have stands := node?_of_find? found
  have isFile : disk.isFileAt? (disk.absolute path).parts = some true := by
    rw [isFileAt?, contentAt, stands]
    rfl
  have alike : (disk.rewritten (disk.absolute path).parts (some bytes)).Alike disk := alike_rewritten fun _ => isFile
  unfold find? at found ⊢
  rw [alike.place_eq]
  cases followed : disk.place (disk.absolute path) with
  | error error =>
      rw [followed] at found
      cases found
  | ok parts =>
      dsimp only
      rw [place_of_absolute followed, node?_rewritten (ne_nil_of_isFileAt? isFile), if_pos rfl]

theorem Disk.keyOf_rewritten (disk : Disk) (place : List Text) (bytes? : Option Bytes) (path : Text) :
    (disk.rewritten place bytes?).keyOf path = disk.keyOf path := by
  cases bytes? with
  | none => rfl
  | some bytes => rfl

/-- A file that can be read is given to its task as text. -/
theorem Disk.effect_of_file {disk : Disk} {path : Text} {bytes : Bytes} {stamp : Int}
    (plain : path.contains (.glyph '\x00') = false) (found : disk.find? (disk.keyOf path) = some (.file bytes stamp))
    (proceed : Text → Effect) : disk.effect path proceed = proceed (Text.decode bytes) := by
  rw [effect, plain, if_neg Bool.false_ne_true, text?, found]
  rfl

theorem Engine.rewriteEffect_of_writable {engine : Engine} {disk : Disk} {path text : Text}
    (writable : (correct engine.rules path text).content ≠ text →
      ∃ later, disk.write (.ofText path) (correct engine.rules path text).content.encode = .ok later) :
    engine.rewriteEffect disk path text =
      ⟨.ok ⟨(correct engine.rules path text).remaining, (correct engine.rules path text).count⟩,
        if (correct engine.rules path text).content = text then none
        else some (correct engine.rules path text).content.encode⟩ := by
  unfold rewriteEffect
  dsimp only
  by_cases unchanged : (correct engine.rules path text).content = text
  · rw [if_pos unchanged, if_pos unchanged]
  · obtain ⟨later, written⟩ := writable unchanged
    rw [if_neg unchanged, if_neg unchanged, written]

/-- After a file has been corrected, its bytes are those of the corrected text, which can be read back from them; it is
written only if the text has changed.  A check that follows finds what was left, also where the file has kept the stamp
and the size under which its old text was held. -/
theorem corrected_file_agrees_with_disk {parallel : Bool} {root : Path} {settings : RuleSettings} {engine : Engine}
    {notices : List Notice} (loaded : (Engine.empty parallel).loadBuiltin root settings = .ok (engine, notices))
    {workspace : Workspace} {path : Text} {bytes : Bytes} {stamp : Int}
    (plain : path.contains (.glyph '\x00') = false)
    (readable : workspace.disk.find? (workspace.disk.keyOf path) = some (.file bytes stamp))
    (current : workspace.cache.IsCurrent workspace.disk (workspace.disk.keyOf path))
    (writable : (correct engine.rules path (Text.decode bytes)).content ≠ Text.decode bytes → ∃ later,
      workspace.disk.write (.ofText path) (correct engine.rules path (Text.decode bytes)).content.encode = .ok later) :
    let corrected := correct engine.rules path (Text.decode bytes)
    let visit := engine.correctFile workspace path
    visit.result = .ok ⟨corrected.remaining, corrected.count⟩ ∧
      visit.workspace.disk.find? (workspace.disk.keyOf path) =
        some (.file corrected.content.encode
          (if corrected.content = Text.decode bytes then stamp else workspace.disk.now)) ∧
      Text.decode corrected.content.encode = corrected.content ∧
      (corrected.content = Text.decode bytes → visit.workspace.disk = workspace.disk) ∧
      (engine.checkFile visit.workspace path []).result = .ok ⟨corrected.remaining, 0⟩ := by
  intro corrected visit
  have realized : Engine.Realizes visit workspace.disk path ⟨.ok ⟨corrected.remaining, corrected.count⟩,
      if corrected.content = Text.decode bytes then none else some corrected.content.encode⟩ := by
    have effectEq := (Disk.effect_of_file plain readable (engine.rewriteEffect workspace.disk path)).trans
      (Engine.rewriteEffect_of_writable writable)
    rw [← effectEq]
    exact engine.process_realizes .correct current
  have readBack : Text.decode corrected.content.encode = corrected.content := by
    obtain ⟨renamings, -, renamed⟩ := Engine.correctFrom_renamed loaded path maxPasses 0 (Text.decode bytes)
    exact Text.decode_encode (renamed.straysApart (Text.straysApart_decode bytes))
  have sameKey : visit.workspace.disk.keyOf path = workspace.disk.keyOf path := by
    rw [realized.disk, Disk.keyOf_rewritten]
  have stands : visit.workspace.disk.find? (workspace.disk.keyOf path) =
      some (.file corrected.content.encode
        (if corrected.content = Text.decode bytes then stamp else workspace.disk.now)) := by
    rw [realized.disk]
    by_cases unchanged : corrected.content = Text.decode bytes
    · rw [if_pos unchanged, if_pos unchanged, unchanged, Text.encode_decode]
      exact readable
    · rw [if_neg unchanged, if_neg unchanged]
      exact Disk.find?_rewritten readable _
  refine ⟨realized.result, stands, readBack, ?_, ?_⟩
  · intro unchanged
    rw [realized.disk, if_pos unchanged]
    rfl
  · have currentAfter := realized.current
    rw [← sameKey] at stands currentAfter
    have checked := (engine.process_realizes (.check fun _ => []) currentAfter).result
    rw [Engine.effect, Disk.effect_of_file plain stands, readBack] at checked
    have remaining : corrected.remaining = (check engine.rules (.ofContent path corrected.content) []).violations :=
      correctFrom_remaining engine.rules path maxPasses 0 (Text.decode bytes)
    rw [Engine.checkFile, checked, remaining]
    rfl

/-- A getter below a stray byte gets a name of the same length, and the file is written with the stamp under which its
old text is held. -/
theorem corrected_file_of_same_stamp_and_size :
    let old : Bytes := Text.encode "# " ++ 0xff :: Text.encode "\ndef get_x(a)\nend\n"
    let new : Bytes := Text.encode "# " ++ 0xff :: Text.encode "\ndef x_for(a)\nend\n"
    let disk : Disk := ⟨[(["srv"], .directory), (["srv", "cart.rb"], .file old 7)], ["srv"], 7⟩
    let cache : Cache := ⟨[(disk.keyOf "cart.rb", ⟨Text.decode old, 7, old.length⟩)], 1000, old.length, 0, 1⟩
    ∃ engine notices, (Engine.empty true).loadBuiltin (.ofText "/srv/shop") .default = .ok (engine, notices) ∧
      cache.IsCurrent disk (disk.keyOf "cart.rb") ∧ new.length = old.length ∧
      (engine.correctFile ⟨disk, cache⟩ "cart.rb").result = .ok ⟨[], 1⟩ ∧
      (engine.correctFile ⟨disk, cache⟩ "cart.rb").workspace.disk.find? (disk.keyOf "cart.rb") =
        some (.file new 7) ∧
      (engine.checkFile (engine.correctFile ⟨disk, cache⟩ "cart.rb").workspace "cart.rb" []).result = .ok ⟨[], 0⟩ := by
  intro old new disk cache
  have readable : disk.find? (disk.keyOf "cart.rb") = some (.file old 7) := by decide +kernel
  have current : cache.IsCurrent disk (disk.keyOf "cart.rb") := by
    intro entry bytes member found _
    obtain rfl : entry = ⟨Text.decode old, 7, old.length⟩ := congrArg Prod.snd (List.mem_singleton.mp member)
    rw [readable] at found
    cases found
    rfl
  have writable : ∀ content, ∃ later, disk.write (.ofText "cart.rb") content = .ok later := fun _ => ⟨_, rfl⟩
  obtain ⟨engine, notices, loaded, content, remaining, count⟩ : ∃ engine notices,
      (Engine.empty true).loadBuiltin (.ofText "/srv/shop") .default = .ok (engine, notices) ∧
        (correct engine.rules "cart.rb" (Text.decode old)).content = Text.decode new ∧
        (correct engine.rules "cart.rb" (Text.decode old)).remaining = [] ∧
        (correct engine.rules "cart.rb" (Text.decode old)).count = 1 := ⟨_, _, rfl, by decide +kernel⟩
  obtain ⟨result, stands, -, -, checked⟩ := @corrected_file_agrees_with_disk true _ _ engine notices loaded
    ⟨disk, cache⟩ "cart.rb" old 7 rfl readable current fun _ => writable _
  have changed : Text.decode new ≠ Text.decode old := by decide +kernel
  rw [remaining] at result checked
  rw [count] at result
  rw [content, if_neg changed, Text.encode_decode] at stands
  exact ⟨engine, notices, loaded, current, by decide, result, stands, checked⟩

end AccessorLint
