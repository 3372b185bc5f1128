import Mathlib
import AccessorLint.Proofs.Blocks
import AccessorLint.Proofs.Locality
set_option autoImplicit false

/-!
What is read on a line of code.

Names and tokens end before a blank, and receivers before a newline, so what stands below the line does not matter to
them.  Of a head only the parameters in parentheses may reach below its line.
-/

namespace AccessorLint.Source

open AccessorLint.Symbol (newline)
open AccessorLint.Text (firstLine)

/-! ### Names and receivers -/

theorem wordLength_stop (line : Text) {stop : Symbol} (blank : stop.isBlank = true) (below : Text) :
    wordLength (line ++ stop :: below) = wordLength line :=
  wordLength_append_stop line (stops_cons (Symbol.isWord_of_isBlank blank) below)

theorem markLength_stop (line : Text) {stop : Symbol} (blank : stop.isBlank = true) (below : Text) :
    markLength (line ++ stop :: below) = markLength line := by
  have noMark : stop.isOneOf "?!" = false := Symbol.isOneOf_of_isBlank blank (by decide)
  have noSign : stop.isOneOf "=~>" = false := Symbol.isOneOf_of_isBlank blank (by decide)
  have other : stop ≠ .glyph '=' := Symbol.ne_of_property blank (by decide)
  cases line with
  | nil => simp [markLength, noMark, other]
  | cons mark after =>
      cases after with
      | nil => simp [markLength, noSign]
      | cons next others => rfl

theorem nameLength_stop (line : Text) {stop : Symbol} (blank : stop.isBlank = true) (below : Text) :
    nameLength (line ++ stop :: below) = nameLength line := by
  have visible : ∀ operator ∈ operatorNames, (operator.all fun symbol => !symbol.isBlank) = true := by decide
  have operators : (operatorNames.find? fun operator => Text.startsWith (line ++ stop :: below) operator) =
      operatorNames.find? fun operator => Text.startsWith line operator := by
    apply List.find?_congr
    intro operator member
    exact startsWith_stop (not_mem_of_isBlank blank (visible operator member)) line below
  simp only [nameLength, wordLength_stop line blank, operators, List.drop_append_of_le_length (wordLength_le line),
    markLength_stop _ blank]

theorem nameLength_line (line below : Text) : nameLength (line ++ newline :: below) = nameLength line :=
  nameLength_stop line (by decide) below

theorem newline_not_mem_name {name rest : Text} (named : nameLength (name ++ rest) = name.length) :
    newline ∉ name := by
  intro member
  obtain ⟨left, right, rfl⟩ := List.append_of_mem member
  have within := nameLength_le left
  rw [List.append_assoc, List.cons_append, nameLength_line, List.length_append, List.length_cons] at named
  omega

theorem receiver?_line (line below : Text) : receiver? (line ++ newline :: below) = receiver? line := by
  have gaps : ∀ text : Text, (text ++ newline :: below).takeWhile isGap = text.takeWhile isGap :=
    fun text => takeWhile_append_stop text (stops_cons (by decide) below)
  have size : pathLength (line ++ newline :: below) = pathLength line :=
    pathLength_append_stop line (stops_cons (by decide) below)
  rw [receiver?_eq, receiver?_eq, wordLength_stop line (by decide), size]
  have within := pathLength_le line
  generalize pathLength line = length at within
  obtain ⟨path, tail, rfl, rfl⟩ : ∃ path tail, line = path ++ tail ∧ path.length = length :=
    ⟨line.take length, line.drop length, (List.take_append_drop length line).symm, List.length_take_of_le within⟩
  obtain ⟨before, dotted, rfl, beforeEq, beforeGaps, -⟩ := exists_run isGap tail
  have dropped : ((path ++ (before ++ dotted)) ++ newline :: below).drop path.length =
      (before ++ dotted) ++ newline :: below := by
    rw [List.append_assoc, List.drop_left]
  have further : ((path ++ (before ++ dotted)) ++ newline :: below).drop (path.length + before.length) =
      dotted ++ newline :: below := by
    rw [← List.drop_drop, dropped, List.append_assoc, List.drop_left]
  have inner : (path ++ (before ++ dotted)).drop (path.length + before.length) = dotted := by
    rw [← List.drop_drop, List.drop_left, List.drop_left]
  simp only [List.drop_left, dropped, gaps, beforeEq, further, inner, ← List.drop_drop]
  cases dotted with
  | nil => rfl
  | cons dot others =>
      simp only [List.cons_append, List.head?_cons, List.drop_one, List.tail_cons, gaps]

theorem unreceived_line {line : Text} (below other : Text)
    (unreceived : Header.Unreceived (line ++ newline :: below)) : Header.Unreceived (line ++ newline :: other) := by
  intro length skipped found
  rw [receiver?_line] at found
  have none := unreceived length skipped (by rw [receiver?_line]; exact found)
  obtain ⟨path, before, after, rest, lineEq, -, -, -, -, -, rfl⟩ := receiver?_sound found
  have within : (path ++ (before ++ .glyph '.' :: after)).length ≤ line.length := by
    rw [lineEq]
    simp only [List.length_append, List.length_cons]
    omega
  rw [List.drop_append_of_le_length within, nameLength_line] at none ⊢
  exact none

/-! ### Heads -/

/-- On a line a head is read for all texts below or for none, and what it says up to its name is the same. -/
theorem Header.read?_line {line : Text} {below : Text} {header : Header}
    (found : read? (line ++ newline :: below) = some header) :
    ∃ receiver lead name tail, line = "def" ++ (lead ++ (name ++ tail)) ∧
      ∀ other, read? (line ++ newline :: other) = some (written receiver lead name (tail ++ newline :: other)) := by
  obtain ⟨lead, name, rest, same, isLead, nonempty, named, -, unreceived⟩ := read?_sound found
  have absent : newline ∉ ("def" ++ (lead ++ name) : Text) := by
    simp only [List.mem_append, not_or]
    exact ⟨by decide, isLead.not_mem (by decide) (by decide) (by decide), newline_not_mem_name named⟩
  obtain ⟨tail, rfl, rfl⟩ : ∃ tail, line = "def" ++ (lead ++ (name ++ tail)) ∧ rest = tail ++ newline :: below := by
    have regrouped : line ++ newline :: below = ("def" ++ (lead ++ name)) ++ rest := by
      rw [same]
      simp
    rcases List.append_eq_append_iff.mp regrouped with ⟨more, headEq, restEq⟩ | ⟨tail, lineEq, restEq⟩
    · cases more with
      | nil => exact ⟨[], by simpa using headEq.symm, by simpa using restEq.symm⟩
      | cons first others =>
          obtain ⟨rfl, -⟩ := List.cons.inj restEq
          exact absurd (by simp [headEq]) absent
    · exact ⟨tail, by simpa using lineEq, restEq⟩
  refine ⟨header.receiver, lead, name, tail, rfl, fun other => ?_⟩
  have complete : read? ("def" ++ (lead ++ (name ++ (tail ++ newline :: other)))) =
      some (written header.receiver lead name (tail ++ newline :: other)) := by
    refine read?_complete isLead nonempty ?_ ?_
    · rw [← List.append_assoc, nameLength_line] at named ⊢
      exact named
    · intro plain
      have unreceivedBelow := unreceived plain
      rw [← List.append_assoc] at unreceivedBelow ⊢
      exact unreceived_line below other unreceivedBelow
  rw [← complete]
  simp

theorem Header.isEndless_line (line below : Text) : isEndless (line ++ newline :: below) = isEndless line := by
  obtain ⟨gaps, rest, rfl, -, inGaps, stops⟩ := exists_run isGap line
  unfold isEndless
  cases rest with
  | nil =>
      rw [List.append_nil, dropWhile_run inGaps (stops_cons (by decide) below),
        List.dropWhile_eq_nil_iff.mpr inGaps]
      rfl
  | cons first others =>
      rw [List.append_assoc, List.cons_append,
        dropWhile_run inGaps (show ∀ next ∈ (first :: (others ++ newline :: below)).head?, isGap next = false from stops),
        dropWhile_run inGaps stops]
      cases others with
      | nil =>
          have apart : newline.isOneOf "=~>" = false := by decide
          simp [apart]
      | cons second later => rfl

/-! ### Tokens -/

theorem tokenLength_stop {line : Text} (nonempty : line ≠ []) {stop : Symbol} (blank : stop.isBlank = true)
    (below : Text) : tokenLength (line ++ stop :: below) = tokenLength line := by
  obtain ⟨first, rest, rfl⟩ := List.exists_cons_of_ne_nil nonempty
  have noDot : stop ≠ .glyph '.' := Symbol.ne_of_property blank (by decide)
  have noMark : stop.isOneOf "?!" = false := Symbol.isOneOf_of_isBlank blank (by decide)
  have noOperator : stop.isOneOf ":.&|" = false := Symbol.isOneOf_of_isBlank blank (by decide)
  have part : (rest ++ stop :: below).takeWhile Symbol.isNamePart = rest.takeWhile Symbol.isNamePart :=
    takeWhile_append_stop rest (stops_cons (isNamePart_of_isBlank blank) below)
  have number : ((rest ++ stop :: below).takeWhile fun symbol => symbol.isWord || symbol = .glyph '.') =
      rest.takeWhile fun symbol => symbol.isWord || symbol = .glyph '.' := by
    apply takeWhile_append_stop rest (stops_cons _ below)
    rw [Symbol.isWord_of_isBlank blank, decide_eq_false noDot]
    rfl
  have within : (rest.takeWhile Symbol.isNamePart).length ≤ rest.length := (List.takeWhile_prefix _).length_le
  have mark : ∀ tail : Text, ((tail ++ stop :: below).head?.any fun symbol => symbol.isOneOf "?!") =
      tail.head?.any fun symbol => symbol.isOneOf "?!" := by
    intro tail
    cases tail with
    | nil => exact noMark
    | cons next others => rfl
  have double : first.isOneOf ":.&|" = true →
      ((rest ++ stop :: below).head? = some first ↔ rest.head? = some first) := by
    intro operator
    cases rest with
    | nil =>
        constructor
        · intro same
          cases same
          rw [noOperator] at operator
          cases operator
        · intro same
          cases same
    | cons next others => rfl
  rw [List.cons_append]
  simp only [tokenLength, part, number, List.drop_append_of_le_length within, mark,
    startsWith_stop (not_mem_of_isBlank blank (by decide) : stop ∉ Text.ofString "..")]
  cases operator : first.isOneOf ":.&|" with
  | false => simp only [Bool.false_and]
  | true => simp only [double operator]

theorem isKeywordPlace_stop (behind line : Text) {stop : Symbol} (blank : stop.isBlank = true) (below : Text) :
    isKeywordPlace behind (line ++ stop :: below) = isKeywordPlace behind line := by
  have noColon : stop ≠ .glyph ':' := Symbol.ne_of_property blank (by decide)
  cases line with
  | nil => simp [isKeywordPlace, noColon]
  | cons first others =>
      cases others with
      | nil => simp [isKeywordPlace, noColon]
      | cons second later => rfl

namespace Block

/-- Where the reading of a `def` leads, by the head that stands there. -/
def readDef (block : Block) : Option Header → Reading
  | none => .goesOn { block with inner := block.inner + 1, atStatement := false } 3
  | some header =>
      let inner := if header.endless then block.inner else block.inner + 1
      .goesOn { block with inner := inner, atStatement := header.endless } header.headerEnd

theorem readKeyword_def (block : Block) (text : Text) :
    block.readKeyword "def" text = block.readDef (Header.read? text) := by
  unfold readKeyword
  rw [if_neg (by decide), if_pos rfl]
  cases Header.read? text <;> rfl

theorem readKeyword_of_ne (block : Block) {word : Text} (other : word ≠ "def") (text below : Text) :
    block.readKeyword word text = block.readKeyword word below := by
  unfold readKeyword
  rw [if_neg other, if_neg other]

theorem read_newline (block : Block) (behind below : Text) :
    block.read behind (newline :: below) = .goesOn { block with atStatement := true, awaitsDo := false } 1 := rfl

/-- Only of the keyword `def` more is read than the line tells. -/
theorem read_stop (block : Block) (behind : Text) {line : Text} (nonempty : line ≠ []) :
    (∀ (stop : Symbol) (below : Text), stop.isBlank = true →
        block.read behind (line ++ stop :: below) = block.read behind line) ∨
      3 ≤ line.length ∧ ∀ (stop : Symbol) (below : Text), stop.isBlank = true →
        block.read behind (line ++ stop :: below) = block.readDef (Header.read? (line ++ stop :: below)) := by
  have within := tokenLength_le line
  have size : (line.take (tokenLength line)).length = tokenLength line := List.length_take_of_le within
  have token : ∀ (stop : Symbol) (below : Text), stop.isBlank = true →
      (line ++ stop :: below).take (tokenLength (line ++ stop :: below)) = line.take (tokenLength line) := by
    intro stop below blank
    rw [tokenLength_stop nonempty blank, List.take_append_of_le_length within]
  have after : ∀ (stop : Symbol) (below : Text), stop.isBlank = true →
      isKeywordPlace behind ((line ++ stop :: below).drop (tokenLength line)) =
        isKeywordPlace behind (line.drop (tokenLength line)) := by
    intro stop below blank
    rw [List.drop_append_of_le_length within, isKeywordPlace_stop _ _ blank]
  by_cases isDef : line.take (tokenLength line) = "def" ∧
      isKeywordPlace behind (line.drop (tokenLength line)) = true
  · right
    obtain ⟨isDef, place⟩ := isDef
    have three : 3 = tokenLength line := by
      rw [isDef] at size
      exact size
    refine ⟨by omega, fun stop below blank => ?_⟩
    unfold read
    simp only [token stop below blank, size, after stop below blank]
    rw [isDef, if_neg (by decide), if_neg (by decide), if_neg (by rw [place]; decide)]
    exact readKeyword_def block _
  · left
    intro stop below blank
    unfold read
    simp only [token stop below blank, size, after stop below blank]
    split_ifs with ends noWord noPlace
    · rfl
    · rfl
    · rfl
    · have other : line.take (tokenLength line) ≠ "def" := by
        intro same
        exact isDef ⟨same, by simpa using noPlace⟩
      exact readKeyword_of_ne block other _ _

end Block

end AccessorLint.Source
