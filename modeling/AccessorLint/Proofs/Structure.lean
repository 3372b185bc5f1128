import Mathlib
import AccessorLint.Proofs.Layout
import AccessorLint.Proofs.Pass
set_option autoImplicit false

/-!
Renaming methods keeps the structure of a file.

Methods that are written in the regular way are renamed one after the other, the last one first.  One renaming fills
a slot with another name, and what it keeps of the methods is kept by all of them: the methods are the same, one for
one, with their arguments, receivers and lines, and the offsets of their names move by what the names before them have
grown.
-/

namespace AccessorLint

open Naming (NamingRule Renaming canRename suggestions)
open Source (Declaration Definition IsIdentifier Ordinary Slot blank lineStarts)

/-! ### New names -/

theorem isNameStart_of_isAscii {symbol : Symbol} (ascii : symbol.isAscii = true) (word : symbol.isWord = true)
    (noDigit : symbol.isDigit = false) : symbol.isNameStart = true := by
  have each : ∀ code : Fin 128, Text.isWordChar (Char.ofNat code) = true → Text.isDigit (Char.ofNat code) = false →
      Text.isNameStart (Char.ofNat code) = true := by decide
  cases symbol with
  | stray low => cases word
  | glyph char =>
      have here := each ⟨char.toNat, of_decide_eq_true ascii⟩
      rw [Char.ofNat_toNat] at here
      exact here word noDigit

/-- What an accessor that can be renamed is about is an identifier, if its name is ASCII. -/
theorem subject_identifier {start rest : Text} (identifier : IsIdentifier (start ++ rest))
    (subjectEq : Naming.subject (start ++ rest) = rest) (renamable : canRename (start ++ rest) = true)
    (ascii : (start ++ rest).all Symbol.isAscii = true) : IsIdentifier rest := by
  rw [canRename, subjectEq] at renamable
  cases rest with
  | nil => cases renamable
  | cons first others =>
      have inName : first ∈ start ++ first :: others := by simp
      refine ⟨⟨first, rfl, ?_⟩, fun symbol member => identifier.words symbol (List.mem_append_right _ member)⟩
      apply isNameStart_of_isAscii (List.all_eq_true.mp ascii first inName) (identifier.words first inName)
      cases last : (first :: others).getLast? with
      | none => simp [last] at renamable
      | some symbol =>
          rw [last, List.head?_cons] at renamable
          exact Bool.not_eq_true' _ ▸ (Bool.and_eq_true_iff.mp renamable).1

/-- The new name of an accessor is ordinary and ASCII. -/
theorem Naming.Renaming.newName_ordinary {name newName : Text} (renames : Renaming name newName)
    (identifier : IsIdentifier name) (renamable : canRename name = true)
    (ascii : name.all Symbol.isAscii = true) : Ordinary newName ∧ newName.all Symbol.isAscii = true := by
  cases renames with
  | getter rest =>
      have inner := subject_identifier identifier (Naming.subject_getter rest) renamable ascii
      rw [List.all_append, Bool.and_eq_true] at ascii ⊢
      refine ⟨.word (inner.append (by decide)) ?_, ascii.2, by decide⟩
      intro same
      have last := congrArg List.getLast? same
      rw [List.getLast?_append_of_ne_nil _ (by decide)] at last
      cases last
  | setter rest =>
      have inner := subject_identifier identifier (Naming.subject_setter rest) renamable ascii
      rw [List.all_append, Bool.and_eq_true] at ascii ⊢
      exact ⟨.assignment inner, ascii.2, by decide⟩
  | apiSetter rest =>
      have start : IsIdentifier "create_" := ⟨⟨_, rfl, by decide⟩, by decide⟩
      rw [List.all_append, Bool.and_eq_true] at ascii ⊢
      refine ⟨.word (start.append fun symbol member => identifier.words symbol (List.mem_append_right _ member)) ?_,
        by decide, ascii.2⟩
      intro same
      cases (List.cons.inj same).1

/-! ### What edits do to names -/

/-- By how much an edit makes a text longer. -/
def Edit.growth (edit : Edit) : Int :=
  edit.text.length - (edit.stop - edit.start)

/-- By how much the edits before an offset make a text longer. -/
def growthBefore (edits : List Edit) (offset : Int) : Int :=
  ((edits.filter fun edit => decide (edit.start < offset)).map Edit.growth).sum

/-- The name at an offset after edits. -/
def nameAfter (edits : List Edit) (offset : Int) (name : Text) : Text :=
  ((edits.find? fun edit => decide (edit.start = offset)).map Edit.text).getD name

theorem growthBefore_concat (edits : List Edit) (edit : Edit) (offset : Int) :
    growthBefore (edits ++ [edit]) offset =
      growthBefore edits offset + if edit.start < offset then edit.growth else 0 := by
  rw [growthBefore, growthBefore, List.filter_append, List.map_append, List.sum_append]
  split_ifs with before <;> simp [before]

theorem growthBefore_congr {edits : List Edit} {first second : Int}
    (same : ∀ edit ∈ edits, edit.start < first ↔ edit.start < second) :
    growthBefore edits first = growthBefore edits second := by
  rw [growthBefore, growthBefore, List.filter_congr fun edit member => decide_eq_decide.mpr (same edit member)]

theorem nameAfter_of_absent {edits : List Edit} {offset : Int} (absent : ∀ edit ∈ edits, edit.start ≠ offset)
    (name : Text) : nameAfter edits offset name = name := by
  have nothing : (edits.find? fun edit => decide (edit.start = offset)) = none :=
    List.find?_eq_none.mpr fun edit member found => absent edit member (of_decide_eq_true found)
  rw [nameAfter, nothing]
  rfl

theorem nameAfter_concat_self {edits : List Edit} {edit : Edit} (absent : ∀ other ∈ edits, other.start < edit.start)
    (name : Text) : nameAfter (edits ++ [edit]) edit.start name = edit.text := by
  have nothing : (edits.find? fun other => decide (other.start = edit.start)) = none :=
    List.find?_eq_none.mpr fun other member found =>
      Int.ne_of_lt (absent other member) (of_decide_eq_true found)
  rw [nameAfter, List.find?_append, nothing, List.find?_singleton, decide_eq_true rfl]
  rfl

theorem nameAfter_concat_other {edits : List Edit} {edit : Edit} {offset : Int} (other : edit.start ≠ offset)
    (name : Text) : nameAfter (edits ++ [edit]) offset name = nameAfter edits offset name := by
  rw [nameAfter, nameAfter, List.find?_append, List.find?_singleton, decide_eq_false other]
  simp

/-! ### One renaming -/

/-- Whether an edit fills a slot of a text with another name. -/
structure Source.Slot.Takes (slot : Slot) (text old : Text) (edit : Edit) : Prop where
  fill : text = slot.fill old
  ordinary : Ordinary old
  visible : slot.Visible old
  start : edit.start = slot.front.length
  stop : edit.stop = slot.front.length + old.length
  renames : Ordinary edit.text
  ascii : edit.text.all Symbol.isAscii = true

/-- What becomes of a definition where edits rename methods. -/
structure Source.Definition.Follows (text out : Text) (edits : List Edit) (first second : Definition) : Prop where
  name : second.header.name = nameAfter edits first.header.nameBegin first.header.name
  nameBegin : (second.header.nameBegin : Int) =
    first.header.nameBegin + growthBefore edits first.header.nameBegin
  nameEnd : second.header.nameEnd = second.header.nameBegin + second.header.name.length
  keeps : ∀ path, (first.declared text path).Keeps (second.declared out path)
  regular : first.isRegular text = true → second.isRegular out = true

variable {slot : Slot} {text out old : Text} {edit : Edit} {edits : List Edit}

theorem Source.Slot.Takes.applied (takes : slot.Takes text old edit) :
    EditBuffer.apply text edit = slot.fill edit.text := by
  have stop : edit.stop.toNat = (slot.front ++ old).length := by
    rw [takes.stop, List.length_append]
    rfl
  rw [EditBuffer.apply, stop, takes.start, takes.fill, Int.toNat_natCast, Slot.fill, List.take_left,
    ← List.append_assoc slot.front old, List.drop_left, List.append_assoc, Slot.fill]

theorem Source.Slot.Takes.growth (takes : slot.Takes text old edit) :
    edit.growth = edit.text.length - old.length := by
  rw [Edit.growth, takes.start, takes.stop]
  omega

/-- A renaming, and others before it. -/
theorem Source.Slot.Takes.follows (takes : slot.Takes text old edit)
    (before : ∀ other ∈ edits, other.start < edit.start) {first second third : Definition}
    (member : first ∈ Definition.all (blank text)) (moved : slot.Moved old edit.text first second)
    (later : Definition.Follows (slot.fill edit.text) out edits second third) :
    Definition.Follows text out (edits ++ [edit]) first third := by
  have start := takes.start
  have growth := takes.growth
  obtain ⟨name, nameBegin⟩ : third.header.name =
        nameAfter (edits ++ [edit]) first.header.nameBegin first.header.name ∧
      (third.header.nameBegin : Int) =
        first.header.nameBegin + growthBefore (edits ++ [edit]) first.header.nameBegin := by
    rw [later.name, later.nameBegin, growthBefore_concat]
    rcases moved.names with ⟨firstAt, secondAt, -, newName⟩ | ⟨kept, ⟨earlier, same⟩ | ⟨after, shifted⟩⟩
    · rw [secondAt, firstAt, newName, ← start, nameAfter_concat_self before, if_neg (lt_irrefl _), Int.add_zero]
      exact ⟨nameAfter_of_absent (fun other member => Int.ne_of_lt (before other member)) _, rfl⟩
    · rw [same, kept, nameAfter_concat_other (by omega), if_neg (by omega), Int.add_zero]
      exact ⟨rfl, rfl⟩
    · -- the edits before this one are before both places
      have absent : ∀ other ∈ edits, other.start < first.header.nameBegin ∧ other.start < second.header.nameBegin := by
        intro other inEdits
        have order := before other inEdits
        omega
      have same := @growthBefore_congr edits second.header.nameBegin first.header.nameBegin (by
        intro other inEdits
        exact ⟨fun _ => (absent other inEdits).1, fun _ => (absent other inEdits).2⟩)
      rw [kept, nameAfter_concat_other (by omega), if_pos (by omega), same,
        nameAfter_of_absent fun other inEdits => Int.ne_of_lt (absent other inEdits).2,
        nameAfter_of_absent fun other inEdits => Int.ne_of_lt (absent other inEdits).1]
      exact ⟨rfl, by omega⟩
  refine ⟨name, nameBegin, later.nameEnd, fun path => ?_, fun regular => ?_⟩
  · rw [takes.fill]
    exact (moved.keeps takes.ordinary takes.renames path).trans (later.keeps path)
  · rw [takes.fill] at member regular
    exact later.regular (moved.isRegular takes.ascii member regular)

/-! ### All renamings -/

/-- Edits that rename methods of a text, the last one first. -/
inductive Retitled : Text → List Edit → Text → Prop where
  | nil (text : Text) : Retitled text [] text
  | concat {slot : Slot} {text old out : Text} {edit : Edit} {edits : List Edit} (takes : slot.Takes text old edit)
      (before : ∀ other ∈ edits, other.start < edit.start) (later : Retitled (slot.fill edit.text) edits out) :
      Retitled text (edits ++ [edit]) out

/-- After the renamings there are the same definitions, one for one. -/
theorem Retitled.follows (retitled : Retitled text edits out) :
    List.Forall₂ (Definition.Follows text out edits) (Definition.all (blank text)) (Definition.all (blank out)) := by
  induction retitled with
  | nil text =>
      refine List.forall₂_same.mpr fun definition member =>
        ⟨rfl, ?_, Definition.nameEnd_eq member, fun path => .refl _, fun regular => regular⟩
      simp [growthBefore]
  | @concat slot text old out edit edits takes before later ih =>
      have moved := slot.definitions_fill takes.ordinary takes.renames takes.visible
      rw [← takes.fill] at moved
      refine forall₂_compose ?_ moved ih
      intro first second third member here there
      exact takes.follows before member here there

/-! ### Renamings of regular definitions -/

/-- Whether an edit renames a definition in the regular way. -/
structure Source.Definition.RenamedBy (text : Text) (edit : Edit) (definition : Definition) : Prop where
  member : definition ∈ Definition.all (blank text)
  identifier : IsIdentifier definition.header.name
  free : definition.header.name ≠ "def"
  regular : definition.isRegular text = true
  start : edit.start = definition.header.nameBegin
  stop : edit.stop = definition.header.nameEnd
  renames : Ordinary edit.text
  ascii : edit.text.all Symbol.isAscii = true

theorem Source.Definition.RenamedBy.exists_slot {definition : Definition}
    (renamed : definition.RenamedBy text edit) : ∃ slot : Slot, slot.Takes text definition.header.name edit := by
  have regular := renamed.regular
  simp only [Definition.isRegular, Bool.and_eq_true] at regular
  obtain ⟨slot, fill, -, nameBegin, visible⟩ :=
    Definition.exists_slot renamed.member renamed.identifier regular.1.2 regular.2
  refine ⟨slot, fill, .word renamed.identifier renamed.free, visible, ?_, ?_, renamed.renames, renamed.ascii⟩
  · rw [renamed.start, nameBegin]
  · rw [renamed.stop, Definition.nameEnd_eq renamed.member, nameBegin, Nat.cast_add]

/-- A definition before a renaming stays where it is. -/
theorem Source.Definition.RenamedBy.of_later {definition : Definition} {later : Edit}
    (renamed : definition.RenamedBy text edit) (takes : slot.Takes text old later)
    (before : edit.start < later.start) : ∃ kept : Definition, kept.RenamedBy (slot.fill later.text) edit := by
  have member := renamed.member
  have regular := renamed.regular
  have start := renamed.start
  have stop := renamed.stop
  rw [Definition.nameEnd_eq member] at stop
  rw [takes.fill] at member regular
  have moved := slot.definitions_fill takes.ordinary takes.renames takes.visible
  obtain ⟨kept, keptMember, here⟩ := exists_of_mem_left moved member
  rw [takes.start, start] at before
  rcases here.names with ⟨there, -⟩ | ⟨name, ⟨-, same⟩ | ⟨after, -⟩⟩
  · omega
  · refine ⟨kept, keptMember, name ▸ renamed.identifier, name ▸ renamed.free,
      here.isRegular takes.ascii member regular, ?_, ?_, renamed.renames, renamed.ascii⟩
    · rw [start, same]
    · rw [stop, Definition.nameEnd_eq keptMember, same, name]
  · omega

theorem retitled_substitute (ascending : Ascending text.length edits)
    (renamed : ∀ edit ∈ edits, ∃ definition : Definition, definition.RenamedBy text edit) :
    Retitled text edits (substitute edits 0 text) := by
  induction edits using List.reverseRecOn generalizing text with
  | nil =>
      rw [substitute_nil]
      exact .nil text
  | append_singleton edits edit ih =>
      obtain ⟨definition, here⟩ := renamed edit (by simp)
      obtain ⟨slot, takes⟩ := here.exists_slot
      have before : ∀ other ∈ edits, other.start < edit.start := by
        intro other member
        have proper := ascending.proper other (by simp [member])
        have apart := (List.pairwise_append.mp ascending.apart).2.2 other member edit (by simp)
        omega
      have rest := EditBuffer.ascending_init ascending
      rw [EditBuffer.substitute_concat ascending]
      rw [takes.applied] at rest ⊢
      refine .concat takes before (ih rest fun other member => ?_)
      obtain ⟨earlier, there⟩ := renamed other (by simp [member])
      exact there.of_later takes (before other member)

/-- A pass that renames regular definitions. -/
theorem Flagged.retitled {path : Text} {flagged : List (Declaration × Text)} (isFlagged : Flagged text path flagged)
    (regular : ∀ definition ∈ Definition.all (blank text), ∀ newName,
      (definition.declared text path, newName) ∈ flagged → definition.isRegular text = true) :
    Retitled text (renamingEdits flagged) (substitute (renamingEdits flagged) 0 text) := by
  refine retitled_substitute isFlagged.ascending fun edit inEdits => ?_
  obtain ⟨⟨declaration, newName⟩, inFlagged, rfl⟩ := List.mem_map.mp inEdits
  have renames := isFlagged.renames _ inFlagged
  have renamable := isFlagged.renamable _ inFlagged
  obtain ⟨definition, member, rfl⟩ := List.mem_map.mp (isFlagged.sublist.subset (List.mem_map_of_mem inFlagged))
  obtain ⟨left, lead, rest, stands⟩ := Definition.exists_stands member
  have isRegular := regular definition member newName inFlagged
  have ascii : definition.header.name.all Symbol.isAscii = true := by
    simp only [Definition.isRegular, Bool.and_eq_true] at isRegular
    exact isRegular.1.1
  have identifier := renames.identifier renamable stands.named
  obtain ⟨ordinary, newAscii⟩ := renames.newName_ordinary identifier renamable ascii
  refine ⟨definition, member, identifier, ?_, isRegular, rfl, rfl, ordinary, newAscii⟩
  intro same
  change Renaming definition.header.name newName at renames
  rw [same] at renames
  cases renames

/-! ### A set of methods -/

/-- The first of the names to take instead of the name of a method. -/
def Naming.NamingRule.newName (rule : NamingRule) (declaration : Declaration) : Text :=
  (suggestions declaration.name (rule.outcome declaration)).headD declaration.name

/-- The edits that rename chosen methods of a text. -/
def chosenEdits (rule : NamingRule) (text path : Text) (chosen : Definition → Bool) : List Edit :=
  renamingEdits (((Definition.all (blank text)).filter chosen).map fun definition =>
    (definition.declared text path, rule.newName (definition.declared text path)))

variable {rule : NamingRule} {path : Text} {chosen : Definition → Bool}

theorem mem_chosenEdits : edit ∈ chosenEdits rule text path chosen ↔
    ∃ definition ∈ Definition.all (blank text), chosen definition = true ∧
      edit = NamingRule.nameEdit (definition.declared text path) (rule.newName (definition.declared text path)) := by
  simp only [chosenEdits, renamingEdits, List.map_map, List.mem_map, List.mem_filter, Function.comp_apply, and_assoc,
    eq_comm]

theorem Source.Definition.eq_of_nameBegin {first second : Definition} {code : Text}
    (inFirst : first ∈ Definition.all code) (inSecond : second ∈ Definition.all code)
    (same : first.header.nameBegin = second.header.nameBegin) : first = second := by
  have different : ((Definition.all code).map fun definition => definition.header.nameBegin).Nodup :=
    List.pairwise_map.mpr ((Definition.all_names_pairwise code).imp fun order => Nat.ne_of_lt order)
  exact List.inj_on_of_nodup_map different inFirst inSecond same

theorem nameAfter_chosenEdits {definition : Definition} (member : definition ∈ Definition.all (blank text)) :
    nameAfter (chosenEdits rule text path chosen) definition.header.nameBegin definition.header.name =
      if chosen definition then rule.newName (definition.declared text path) else definition.header.name := by
  have own : ∀ edit ∈ chosenEdits rule text path chosen, edit.start = definition.header.nameBegin →
      chosen definition = true ∧ edit.text = rule.newName (definition.declared text path) := by
    intro edit inEdits start
    obtain ⟨other, inCode, isChosen, rfl⟩ := mem_chosenEdits.mp inEdits
    obtain rfl := Definition.eq_of_nameBegin inCode member (Int.ofNat.inj start)
    exact ⟨isChosen, rfl⟩
  split_ifs with isChosen
  · rw [nameAfter]
    cases found : (chosenEdits rule text path chosen).find? fun edit =>
        decide (edit.start = (definition.header.nameBegin : Int)) with
    | none =>
        have absent := List.find?_eq_none.mp found _ (mem_chosenEdits.mpr ⟨definition, member, isChosen, rfl⟩)
        exact absurd (decide_eq_true rfl) absent
    | some edit =>
        have start := List.find?_some found
        exact (own edit (List.mem_of_find?_eq_some found) (of_decide_eq_true start)).2
  · exact nameAfter_of_absent (fun edit inEdits start => isChosen (own edit inEdits start).1) _

theorem head?_suggestions {declaration : Declaration} (found : rule.outcome declaration ≠ .skip) :
    (suggestions declaration.name (rule.outcome declaration)).head? = some (rule.newName declaration) := by
  unfold NamingRule.newName
  cases outcome : rule.outcome declaration with
  | skip => exact absurd outcome found
  | getter => rfl
  | setter => rfl
  | apiSetter => rfl

/-- Renaming a set of methods keeps the structure of a file.  In the new text there are as many methods in the same
order.  Each has as many arguments, the same receiver and the same lines, and its name is the old one unless it was
renamed.  The offsets of the name move by as much as the renamed names before it have grown. -/
theorem renaming_keeps_structure (rule : NamingRule) (content path : Text) (chosen : Definition → Bool)
    (flagged : ∀ definition ∈ Definition.all (blank content), chosen definition = true →
      rule.outcome (definition.declared content path) ≠ .skip ∧ canRename definition.header.name = true ∧
        definition.isRegular content = true) :
    List.Forall₂
      (fun (definition : Definition) (after : Declaration) =>
        let before := definition.declared content path
        let shift := growthBefore (chosenEdits rule content path chosen) before.nameRange.start
        before.Keeps after ∧
          after.name = (if chosen definition then rule.newName before else before.name) ∧
          (after.nameRange.start : Int) = before.nameRange.start + shift ∧
          (after.nameRange.stop : Int) =
            before.nameRange.stop + shift + (after.name.length - before.name.length : Int))
      (Definition.all (blank content))
      (Declaration.scan (substitute (chosenEdits rule content path chosen) 0 content) path) := by
  have isFlagged : Flagged content path (((Definition.all (blank content)).filter chosen).map fun definition =>
      (definition.declared content path, rule.newName (definition.declared content path))) := by
    have each : ∀ named ∈ ((Definition.all (blank content)).filter chosen).map (fun definition =>
        (definition.declared content path, rule.newName (definition.declared content path))),
        Renaming named.1.name named.2 ∧ canRename named.1.name = true := by
      intro named inList
      obtain ⟨definition, inFilter, rfl⟩ := List.mem_map.mp inList
      obtain ⟨member, isChosen⟩ := List.mem_filter.mp inFilter
      obtain ⟨found, renamable, -⟩ := flagged definition member isChosen
      exact ⟨Naming.renaming_of_suggestion (head?_suggestions found), renamable⟩
    refine ⟨?_, fun named inList => (each named inList).1, fun named inList => (each named inList).2⟩
    rw [List.map_map]
    exact List.filter_sublist.map _
  have retitled := isFlagged.retitled (by
    intro definition member newName inList
    obtain ⟨other, inFilter, same⟩ := List.mem_map.mp inList
    obtain ⟨inCode, isChosen⟩ := List.mem_filter.mp inFilter
    have start : other.header.nameBegin = definition.header.nameBegin :=
      congrArg (fun named : Declaration × Text => named.1.nameRange.start) same
    obtain rfl := Definition.eq_of_nameBegin inCode member start
    exact (flagged other member isChosen).2.2)
  rw [Declaration.scan, List.forall₂_map_right_iff]
  refine ((List.forall₂_and_left _ _).mpr ⟨fun definition member => member, retitled.follows⟩).imp ?_
  rintro definition second ⟨member, follows⟩
  have nameEnd := Definition.nameEnd_eq member
  have nameBegin := follows.nameBegin
  have newEnd := follows.nameEnd
  refine ⟨follows.keeps path, follows.name.trans (nameAfter_chosenEdits member), nameBegin, ?_⟩
  change (second.header.nameEnd : Int) = definition.header.nameEnd +
    growthBefore (chosenEdits rule content path chosen) definition.header.nameBegin +
      (second.header.name.length - definition.header.name.length : Int)
  change (second.header.nameBegin : Int) = definition.header.nameBegin +
    growthBefore (chosenEdits rule content path chosen) definition.header.nameBegin at nameBegin
  omega

/-- The new name of a setter may spell a keyword, and a getter may stand inside. -/
theorem nested_accessors_keep_structure :
    ∃ (rule : NamingRule) (content : Text),
      content = "def set_end(a)\n  def self.get_tax(b)\n  end\nend\n" ∧
        (∀ definition ∈ Definition.all (blank content),
          rule.outcome (definition.declared content "cart.rb") ≠ .skip ∧ canRename definition.header.name = true ∧
            definition.isRegular content = true) ∧
        (Declaration.scan (substitute (chosenEdits rule content "cart.rb" fun _ => true) 0 content) "cart.rb").map
            (fun method => (method.name, method.receiver, method.relatedLines)) =
          [(Text.ofString "end=", none, 1, 4), (Text.ofString "tax_for", some (Text.ofString "self"), 2, 3)] := by
  let rule : NamingRule := ⟨true, .warning, .default, true, none⟩
  let content : Text := "def set_end(a)\n  def self.get_tax(b)\n  end\nend\n"
  have flagged : ∀ definition ∈ Definition.all (blank content),
      rule.outcome (definition.declared content "cart.rb") ≠ .skip ∧ canRename definition.header.name = true ∧
        definition.isRegular content = true := by decide +kernel
  have kept := renaming_keeps_structure rule content "cart.rb" (fun _ => true)
    fun definition member _ => flagged definition member
  have same : ((Definition.all (blank content)).map fun definition =>
        (rule.newName (definition.declared content "cart.rb"), definition.header.receiver,
          (definition.declared content "cart.rb").relatedLines)) =
      (Declaration.scan (substitute (chosenEdits rule content "cart.rb" fun _ => true) 0 content) "cart.rb").map
        fun method => (method.name, method.receiver, method.relatedLines) := by
    rw [← List.forall₂_eq_eq_eq, List.forall₂_map_left_iff, List.forall₂_map_right_iff]
    refine kept.imp fun definition after ⟨keeps, name, _⟩ => ?_
    rw [name, keeps.receiver, keeps.relatedLines]
    rfl
  refine ⟨rule, content, rfl, flagged, same.symm.trans ?_⟩
  decide +kernel

end AccessorLint
