import Mathlib
import AccessorLint.Proofs.Lines
import AccessorLint.Proofs.Pass
set_option autoImplicit false

/-!
What correction leaves alone.

A renaming changes one line, and only a line that has `get_` or `set_` in it; it neither adds nor removes a line.  So
does any number of renamings.
-/

namespace AccessorLint

open AccessorLint.Symbol (newline)
open Naming (NamingRule Renaming Site Renamed getStart setStart canRename suggestions)
open Source (Declaration)

namespace Text

/-! ### Lines around a place -/

theorem occursIn_iff {needle text : Text} : occursIn needle text = true ↔ needle <:+: text := by
  induction text with
  | nil => simp [occursIn]
  | cons symbol rest ih => rw [occursIn, Bool.or_eq_true, ih, List.isPrefixOf_iff_prefix, List.infix_cons_iff]

/-- What stands inside a line changes only that line. -/
theorem lines_around (left right : Text) :
    ∃ above front back below, ∀ middle, newline ∉ middle →
      lines (left ++ (middle ++ right)) = above ++ (front ++ (middle ++ back)) :: below := by
  induction left using line_induction with
  | last front frontAbsent =>
      rcases line_cases right with backAbsent | ⟨back, rest, backAbsent, rfl⟩
      · refine ⟨[], front, right, [], fun middle absent => ?_⟩
        rw [lines_of_not_mem (by simp [frontAbsent, absent, backAbsent])]
        rfl
      · refine ⟨[], front, back, lines rest, fun middle absent => ?_⟩
        have regrouped : front ++ (middle ++ (back ++ newline :: rest)) =
            (front ++ (middle ++ back)) ++ newline :: rest := by simp
        rw [regrouped, lines_append_newline, lines_of_not_mem (by simp [frontAbsent, absent, backAbsent])]
        rfl
  | line line rest absent ih =>
      obtain ⟨above, front, back, below, same⟩ := ih
      refine ⟨line :: above, front, back, below, fun middle middleAbsent => ?_⟩
      rw [List.append_assoc, List.cons_append, lines_append_newline, lines_of_not_mem absent,
        same middle middleAbsent]
      rfl

end Text

/-! ### Texts that keep their lines -/

/-- Whether a text keeps the number of its newlines, and each line without `get_` and `set_` in its place. -/
structure Kept (text out : Text) : Prop where
  newlines : out.count newline = text.count newline
  lines : ∀ (index : Nat) (line : Text), text.lines[index]? = some line → Text.occursIn getStart line = false →
    Text.occursIn setStart line = false → out.lines[index]? = some line

theorem Kept.refl (text : Text) : Kept text text :=
  ⟨rfl, fun _ _ found _ _ => found⟩

theorem Kept.trans {first second third : Text} (before : Kept first second) (after : Kept second third) :
    Kept first third := by
  refine ⟨after.newlines.trans before.newlines, ?_⟩
  intro index line found noGet noSet
  exact after.lines index line (before.lines index line found noGet noSet) noGet noSet

/-! ### Renamings -/

theorem Naming.Renaming.occurs {name newName : Text} (renames : Renaming name newName) :
    getStart <:+: name ∨ setStart <:+: name := by
  obtain ⟨start, rfl | rfl, nameEq⟩ := renames.exists_subject
  · exact Or.inl (nameEq ▸ (List.prefix_append _ _).isInfix)
  · exact Or.inr (nameEq ▸ (List.prefix_append _ _).isInfix)

/-- The new name has no symbols but those of the old one and those of a few fixed texts. -/
theorem Naming.Renaming.newline_not_mem {name newName : Text} (renames : Renaming name newName)
    (absent : newline ∉ name) : newline ∉ newName := by
  cases renames with
  | getter subject =>
      intro member
      rcases List.mem_append.mp member with old | new
      · exact absent (List.mem_append_right _ old)
      · revert new
        decide
  | setter subject =>
      intro member
      rcases List.mem_append.mp member with old | new
      · exact absent (List.mem_append_right _ old)
      · revert new
        decide
  | apiSetter subject =>
      intro member
      rcases List.mem_append.mp member with new | old
      · revert new
        decide
      · exact absent (List.mem_append_right _ old)

theorem Naming.Site.kept {text left name right : Text} {edit : Edit} (site : Site text edit left name right) :
    Kept text (EditBuffer.apply text edit) := by
  have oldAbsent : newline ∉ name := by
    intro member
    exact Source.ne_newline_of_isWord (site.identifier.words newline member) rfl
  have newAbsent := site.renames.newline_not_mem oldAbsent
  rw [site.applied, site.textEq]
  constructor
  · simp only [List.count_append, List.count_eq_zero_of_not_mem oldAbsent, List.count_eq_zero_of_not_mem newAbsent]
  · obtain ⟨above, front, back, below, around⟩ := Text.lines_around left right
    intro index line found noGet noSet
    rw [around name oldAbsent] at found
    rw [around edit.text newAbsent]
    rcases Nat.lt_trichotomy index above.length with before | rfl | after
    · rw [List.getElem?_append_left before] at found ⊢
      exact found
    · -- the line of the name has `get_` or `set_`
      exfalso
      rw [List.getElem?_append_right (Nat.le_refl _), Nat.sub_self, List.getElem?_cons_zero] at found
      obtain rfl := Option.some.inj found
      have inside : name <:+: front ++ (name ++ back) := ⟨front, back, by simp⟩
      rcases site.renames.occurs with getter | setter
      · rw [Text.occursIn_iff.mpr (getter.trans inside)] at noGet
        cases noGet
      · rw [Text.occursIn_iff.mpr (setter.trans inside)] at noSet
        cases noSet
    · rw [List.getElem?_append_right (Nat.le_of_lt after)] at found ⊢
      obtain ⟨further, size⟩ : ∃ further, index - above.length = further + 1 :=
        ⟨index - above.length - 1, by omega⟩
      rw [size, List.getElem?_cons_succ] at found ⊢
      exact found

theorem Naming.Renamed.kept {count : Nat} {text out : Text} (renamed : Renamed count text out) : Kept text out := by
  induction renamed with
  | refl text => exact .refl text
  | step site later ih => exact site.kept.trans ih

/-! ### Correction -/

/-- A pass applies every correction and defers none.  The text after it is the text before with the names of the
corrected definitions replaced at once.  Correction goes by such passes, and after all of them the newlines and the
lines without `get_` and `set_` are where they were. -/
theorem correction_only_renames {parallel : Bool} {root : Path} {settings : RuleSettings} {engine : Engine}
    {notices : List Notice} (loaded : (Engine.empty parallel).loadBuiltin root settings = .ok (engine, notices))
    (path content : Text) :
    (∀ text,
      (pass engine.rules path text).applied = (correctable engine.rules path text).length ∧
        (pass engine.rules path text).notices = [] ∧
        ∃ flagged : List (Declaration × Text), (flagged.map Prod.fst).Sublist (Declaration.scan text path) ∧
          List.Forall₂ (fun named violation => ∃ rule, NamingRule.ofSettings settings (some root) = .ok rule ∧
              violation.line = named.1.nameRange.line ∧ violation.column = named.1.nameRange.column ∧
              rule.outcome named.1 ≠ .skip ∧ violation.subType = some (rule.outcome named.1).name ∧
              canRename named.1.name = true ∧
              (suggestions named.1.name (rule.outcome named.1)).head? = some named.2)
            flagged (correctable engine.rules path text) ∧
          (pass engine.rules path text).buffer.process =
            substitute (flagged.map fun named =>
              ⟨named.1.nameRange.start, named.1.nameRange.stop, named.2⟩) 0 text) ∧
      GoesByPasses engine.rules path ∧
      (correct engine.rules path content).content.count newline = content.count newline ∧
      ∀ (index : Nat) (line : Text), content.lines[index]? = some line → Text.occursIn getStart line = false →
        Text.occursIn setStart line = false →
          (correct engine.rules path content).content.lines[index]? = some line := by
  refine ⟨?_, goesByPasses engine.rules path, ?_⟩
  · intro text
    obtain ⟨flagged, isFlagged, corrects, registered⟩ := Engine.pass_flagged loaded path text
    rw [registered]
    refine ⟨corrects.length_eq, rfl, flagged, isFlagged.sublist, corrects.imp ?_,
      EditBuffer.process_eq_substitute isFlagged.ascending⟩
    rintro named violation ⟨rule, made, here⟩
    refine ⟨rule, made, here.line, here.column, ?_, here.subType, here.renamable, here.newName⟩
    intro skipped
    have newName := here.newName
    rw [skipped] at newName
    cases newName
  · obtain ⟨renamings, -, renamed⟩ := Engine.correctFrom_renamed loaded path maxPasses 0 content
    exact ⟨renamed.kept.newlines, renamed.kept.lines⟩

/-- The body of a getter that is renamed stays on its line. -/
theorem body_of_getter_kept :
    ∃ engine notices,
      (Engine.empty false).loadBuiltin (.ofText "/srv/shop") .default = .ok (engine, notices) ∧
        (correct engine.rules "cart.rb" "def get_total(tax)\n  tax\nend\n").content.count newline = 3 ∧
        (correct engine.rules "cart.rb" "def get_total(tax)\n  tax\nend\n").content.lines[1]? =
          some (Text.ofString "  tax") := by
  obtain ⟨engine, notices, loaded⟩ : ∃ engine notices,
      (Engine.empty false).loadBuiltin (.ofText "/srv/shop") .default = .ok (engine, notices) := ⟨_, _, rfl⟩
  obtain ⟨-, -, newlines, lines⟩ := correction_only_renames loaded "cart.rb" "def get_total(tax)\n  tax\nend\n"
  exact ⟨engine, notices, loaded, newlines.trans (by decide), lines 1 "  tax" rfl rfl rfl⟩

end AccessorLint
