import Mathlib
import AccessorLint.Proofs.Pass
set_option autoImplicit false

/-!
Segments of words, and how many of them are left to correct.

The words of a text fall into segments at each `_`.  Every renaming takes away exactly one segment that is `get` or
`set`, so the number of these segments tells how far correction can go.
-/

namespace AccessorLint

open Naming (NamingRule Renaming Site Renamed getStart setStart)

/-! ### Segments -/

/-- Whether a segment ends before the symbol or starts after it. -/
def isDivider (symbol : Symbol) : Bool :=
  symbol = .glyph '_' || !symbol.isWord

/-- The segments that are counted. -/
def accessorWords : List Text := ["get", "set"]

/-- Whether one of the counted segments stands at the start of the text ahead. -/
def startsSegment (behind ahead : Text) : Bool :=
  behind.head?.all isDivider &&
    accessorWords.any fun word => ahead.startsWith word && (ahead.drop word.length).head?.all isDivider

/-- The number of counted segments that start in the text ahead. -/
def segmentsFrom (behind : Text) : Text → Nat
  | [] => 0
  | symbol :: rest => (if startsSegment behind (symbol :: rest) then 1 else 0) + segmentsFrom (symbol :: behind) rest

/-- The number of segments of words in a text that are `get` or `set`. -/
def accessorSegments (text : Text) : Nat :=
  segmentsFrom [] text

theorem isDivider_of_not_isWord {symbol : Symbol} (outside : symbol.isWord = false) : isDivider symbol = true := by
  rw [isDivider, outside]
  exact Bool.or_true _

/-- What lies behind counts only by whether it ends a segment. -/
theorem segmentsFrom_congr {left right : Text} (same : left.head?.all isDivider = right.head?.all isDivider)
    (text : Text) : segmentsFrom left text = segmentsFrom right text := by
  induction text generalizing left right with
  | nil => rfl
  | cons symbol rest ih =>
      rw [segmentsFrom, segmentsFrom, startsSegment, startsSegment, same,
        ih (show (symbol :: left).head?.all isDivider = (symbol :: right).head?.all isDivider from rfl)]

/-- A divider cuts a word without dividers off from what follows. -/
theorem startsWith_append_divider {word : Text} (inside : ∀ symbol ∈ word, isDivider symbol = false) (front back : Text)
    {divider : Symbol} (isDiv : isDivider divider = true) :
    ((front ++ divider :: back).startsWith word &&
        ((front ++ divider :: back).drop word.length).head?.all isDivider) =
      (front.startsWith word && (front.drop word.length).head?.all isDivider) := by
  induction word generalizing front with
  | nil =>
      cases front with
      | nil => simp [Text.startsWith, isDiv]
      | cons first others => simp [Text.startsWith]
  | cons symbol others ih =>
      cases front with
      | nil =>
          have different : (symbol == divider) = false := by
            rw [beq_eq_false_iff_ne]
            rintro rfl
            rw [inside symbol (List.mem_cons_self ..)] at isDiv
            cases isDiv
          simp [Text.startsWith, List.isPrefixOf, different]
      | cons first later =>
          have rest := ih (fun other member => inside other (List.mem_cons_of_mem _ member)) later
          simp only [Text.startsWith] at rest
          simp only [Text.startsWith, List.cons_append, List.isPrefixOf, List.length_cons, List.drop_succ_cons,
            Bool.and_assoc, rest]

theorem startsSegment_append_divider (behind front back : Text) {divider : Symbol}
    (isDiv : isDivider divider = true) :
    startsSegment behind (front ++ divider :: back) = startsSegment behind front := by
  have getter := startsWith_append_divider (show ∀ symbol ∈ Text.ofString "get", isDivider symbol = false by decide)
    front back isDiv
  have setter := startsWith_append_divider (show ∀ symbol ∈ Text.ofString "set", isDivider symbol = false by decide)
    front back isDiv
  simp only [startsSegment, accessorWords, List.any_cons, List.any_nil, getter, setter]

/-- The segments before a divider and those after it are all segments. -/
theorem segmentsFrom_append_divider (behind left right : Text) {divider : Symbol} (isDiv : isDivider divider = true) :
    segmentsFrom behind (left ++ divider :: right) = segmentsFrom behind left + accessorSegments right := by
  induction left generalizing behind with
  | nil =>
      have none : startsSegment behind (divider :: right) = startsSegment behind [] :=
        startsSegment_append_divider behind [] right isDiv
      have nowhere : startsSegment behind [] = false := by simp [startsSegment, accessorWords, Text.startsWith, Text.ofString]
      have apart : segmentsFrom (divider :: behind) right = segmentsFrom [] right :=
        segmentsFrom_congr (by simpa using isDiv) right
      rw [List.nil_append, segmentsFrom.eq_2, none, nowhere, apart]
      rfl
  | cons symbol rest ih =>
      have cut := startsSegment_append_divider behind (symbol :: rest) right isDiv
      rw [List.cons_append] at cut
      rw [List.cons_append, segmentsFrom, segmentsFrom, cut, ih, Nat.add_assoc]

theorem accessorSegments_append_divider (left right : Text) {divider : Symbol} (isDiv : isDivider divider = true) :
    accessorSegments (left ++ divider :: right) = accessorSegments left + accessorSegments right :=
  segmentsFrom_append_divider [] left right isDiv

/-- Segments are counted apart on both sides of a place where one ends. -/
theorem accessorSegments_append {left right : Text}
    (meet : (∀ last ∈ left.getLast?, isDivider last = true) ∨ ∀ first ∈ right.head?, isDivider first = true) :
    accessorSegments (left ++ right) = accessorSegments left + accessorSegments right := by
  rcases meet with before | after
  · rcases List.eq_nil_or_concat' left with rfl | ⟨front, last, rfl⟩
    · exact (Nat.zero_add _).symm
    · have isDiv := before last (by simp)
      rw [List.append_assoc, List.singleton_append, accessorSegments_append_divider front right isDiv,
        accessorSegments_append_divider front [] isDiv]
      rfl
  · cases right with
    | nil =>
        rw [List.append_nil]
        rfl
    | cons first rest =>
        have isDiv := after first rfl
        have alone := accessorSegments_append_divider [] rest isDiv
        rw [List.nil_append] at alone
        rw [accessorSegments_append_divider left rest isDiv, alone]
        exact congrArg _ (Nat.zero_add _).symm

/-! ### Renamings -/

/-- The new name has one counted segment less than the old one. -/
theorem Naming.Renaming.segments {name newName : Text} (renames : Renaming name newName) :
    accessorSegments name = accessorSegments newName + 1 := by
  cases renames with
  | getter subject =>
      rw [accessorSegments_append (Or.inl (by decide)), accessorSegments_append (Or.inr (by decide)), Nat.add_comm]
      rfl
  | setter subject =>
      rw [accessorSegments_append (Or.inl (by decide)), accessorSegments_append (Or.inr (by decide)), Nat.add_comm]
      rfl
  | apiSetter subject =>
      rw [accessorSegments_append (Or.inl (by decide)), accessorSegments_append (Or.inl (by decide)), Nat.add_comm,
        Nat.add_comm (accessorSegments "create_")]
      rfl

theorem Naming.Site.segments {text left name right : Text} {edit : Edit} (site : Site text edit left name right) :
    accessorSegments text = accessorSegments (EditBuffer.apply text edit) + 1 := by
  have split : ∀ middle : Text, accessorSegments (left ++ (middle ++ right)) =
      accessorSegments left + (accessorSegments middle + accessorSegments right) := by
    intro middle
    rw [accessorSegments_append (Or.inl fun last member => isDivider_of_not_isWord (site.before last member)),
      accessorSegments_append (Or.inr fun next member => isDivider_of_not_isWord (site.after next member))]
  rw [site.applied, site.textEq, split, split, site.renames.segments]
  omega

/-- So many renamings take away as many counted segments. -/
theorem Naming.Renamed.segments {count : Nat} {text out : Text} (renamed : Renamed count text out) :
    accessorSegments text = accessorSegments out + count := by
  induction renamed with
  | refl => rfl
  | step site later ih => rw [site.segments, ih, Nat.add_assoc]

/-! ### Correction -/

variable {parallel : Bool} {root : Path} {settings : RuleSettings} {engine : Engine} {notices : List Notice}

/-- A pass applies as many corrections as there are violations to correct, and takes away as many segments. -/
theorem Engine.pass_segments
    (loaded : (Engine.empty parallel).loadBuiltin root settings = .ok (engine, notices)) (path text : Text) :
    (pass engine.rules path text).applied = (correctable engine.rules path text).length ∧
      accessorSegments text =
        accessorSegments (pass engine.rules path text).buffer.process + (pass engine.rules path text).applied := by
  obtain ⟨flagged, isFlagged, corrects, registered⟩ := Engine.pass_flagged loaded path text
  rw [registered]
  exact ⟨corrects.length_eq, isFlagged.renamed.segments⟩

/-- With at most as many segments as passes, correction ends when nothing is left to correct. -/
theorem Engine.correctFrom_settled
    (loaded : (Engine.empty parallel).loadBuiltin root settings = .ok (engine, notices)) (path : Text)
    (passes count : Nat) (content : Text) (few : accessorSegments content ≤ passes) :
    ∀ violation ∈ (correctFrom engine.rules path passes count content).remaining,
      violation.isCorrectable = false := by
  induction passes generalizing count content with
  | zero =>
      obtain ⟨applied, segments⟩ := Engine.pass_segments loaded path content
      have none : correctable engine.rules path content = [] := List.length_eq_zero_iff.mp (by omega)
      intro violation member
      exact Bool.eq_false_iff.mpr (List.filter_eq_nil_iff.mp none violation member)
  | succ passes ih =>
      obtain ⟨applied, segments⟩ := Engine.pass_segments loaded path content
      by_cases nothing : (pass engine.rules path content).applied = 0
      · have none : correctable engine.rules path content = [] := List.length_eq_zero_iff.mp (by omega)
        obtain ⟨told, last⟩ := correctFrom_of_nothing nothing passes count
        rw [last]
        intro violation member
        exact Bool.eq_false_iff.mpr (List.filter_eq_nil_iff.mp none violation member)
      · have changed : (pass engine.rules path content).buffer.process ≠ content := by
          intro unchanged
          rw [unchanged] at segments
          omega
        obtain ⟨told, goesOn⟩ := correctFrom_of_changed nothing changed passes count
        rw [goesOn]
        exact ih _ _ (by omega)

/-- Every correction takes away exactly one segment that is `get` or `set`.  A pass with something to correct
applies a correction and changes the text, and if the passes allowed are as many as the segments, nothing is left to
correct.  The passes are those by which correction goes. -/
theorem correction_takes_segments
    (loaded : (Engine.empty parallel).loadBuiltin root settings = .ok (engine, notices)) (path content : Text) :
    accessorSegments content =
        accessorSegments (correct engine.rules path content).content + (correct engine.rules path content).count ∧
      (∀ text,
        (correctable engine.rules path text ≠ [] → (pass engine.rules path text).applied ≠ 0) ∧
          ((pass engine.rules path text).applied ≠ 0 →
            accessorSegments (pass engine.rules path text).buffer.process < accessorSegments text ∧
              (pass engine.rules path text).buffer.process ≠ text)) ∧
      (accessorSegments content ≤ 10 →
        ∀ violation ∈ (correct engine.rules path content).remaining, violation.isCorrectable = false) ∧
      GoesByPasses engine.rules path := by
  refine ⟨?_, ?_, Engine.correctFrom_settled loaded path maxPasses 0 content, goesByPasses engine.rules path⟩
  · obtain ⟨renamings, count, renamed⟩ := Engine.correctFrom_renamed loaded path maxPasses 0 content
    rw [correct, count, Nat.zero_add]
    exact renamed.segments
  · intro text
    obtain ⟨applied, segments⟩ := Engine.pass_segments loaded path text
    constructor
    · intro something nothing
      exact something (List.length_eq_zero_iff.mp (by omega))
    · intro something
      have fewer : accessorSegments (pass engine.rules path text).buffer.process < accessorSegments text := by omega
      refine ⟨fewer, ?_⟩
      intro same
      rw [same] at fewer
      exact Nat.lt_irrefl _ fewer

/-- A name with stacked starts is corrected until no segment is left. -/
theorem stacked_accessor_corrected :
    ∃ engine notices,
      (Engine.empty true).loadBuiltin (.ofText "/srv/shop") .default = .ok (engine, notices) ∧
        2 = accessorSegments (correct engine.rules "cart.rb" "def get_set_total(tax)\nend\n").content +
          (correct engine.rules "cart.rb" "def get_set_total(tax)\nend\n").count ∧
        ∀ violation ∈ (correct engine.rules "cart.rb" "def get_set_total(tax)\nend\n").remaining,
          violation.isCorrectable = false := by
  obtain ⟨engine, notices, loaded⟩ : ∃ engine notices,
      (Engine.empty true).loadBuiltin (.ofText "/srv/shop") .default = .ok (engine, notices) := ⟨_, _, rfl⟩
  have two : accessorSegments "def get_set_total(tax)\nend\n" = 2 := by decide
  obtain ⟨counted, -, settled, -⟩ := correction_takes_segments loaded "cart.rb" "def get_set_total(tax)\nend\n"
  rw [two] at counted settled
  exact ⟨engine, notices, loaded, counted, settled (by decide)⟩

end AccessorLint
