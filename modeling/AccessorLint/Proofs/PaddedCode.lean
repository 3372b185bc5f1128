import Mathlib
import AccessorLint.Proofs.Appended
import AccessorLint.Proofs.PaddedHeads
import AccessorLint.Proofs.Search
set_option autoImplicit false

/-!
The definitions of padded code.

A token is read on its line, and padding stands between tokens, so the search for the end of a block goes through
padded code as through the code itself.  Padded code has the same definitions, one for one, at the same places of their
lines.
-/

namespace AccessorLint.Source

open AccessorLint.Symbol (newline)
open AccessorLint.Text (WholeLines firstLine)

/-! ### Places of padded code -/

/-- Whether two places are the same one of code and of padded code.  Before the newline at which the first place lies,
the second may have passed padding. -/
structure PaddedPlace (behind other left right : Text) : Prop where
  ahead : Padded left right
  passed : ∃ pads upper, other = pads ++ upper ∧ Padded behind.reverse upper.reverse ∧
    (∀ symbol ∈ pads, isFiller symbol = true) ∧ (pads = [] ∨ left.head? = some newline)

namespace PaddedPlace

theorem of_padded {behind other left right : Text} (before : Padded behind.reverse other.reverse)
    (ahead : Padded left right) : PaddedPlace behind other left right :=
  ⟨ahead, [], other, rfl, before, by simp, Or.inl rfl⟩

theorem before {behind other left right : Text} (place : PaddedPlace behind other left right)
    (inside : left.head? ≠ some newline) : Padded behind.reverse other.reverse := by
  obtain ⟨pads, upper, rfl, before, -, rfl | atLine⟩ := place.passed
  · exact before
  · exact absurd atLine inside

theorem line {behind other left right : Text} (place : PaddedPlace behind other (newline :: left) (newline :: right))
    (later : Padded left right) : PaddedPlace (newline :: behind) (newline :: other) left right := by
  obtain ⟨pads, upper, rfl, before, fills, -⟩ := place.passed
  refine of_padded ?_ later
  have reversed : ∀ symbol ∈ pads.reverse, isFiller symbol = true :=
    fun symbol member => fills symbol (List.mem_reverse.mp member)
  rw [List.reverse_cons, List.reverse_cons, List.reverse_append, List.append_assoc]
  exact before.append (.add_pads reversed (.line .nil))

theorem pad {pad : Symbol} {behind other left right : Text}
    (place : PaddedPlace behind other (newline :: left) (pad :: right)) (fills : isFiller pad = true)
    (later : Padded (newline :: left) right) : PaddedPlace behind (pad :: other) (newline :: left) right := by
  obtain ⟨pads, upper, rfl, before, allFill, -⟩ := place.passed
  exact ⟨later, pad :: pads, upper, rfl, before, List.forall_mem_cons.mpr ⟨fills, allFill⟩, Or.inr rfl⟩

theorem past {behind other left right : Text} {length size : Nat} (before : Padded behind.reverse other.reverse)
    (cut : PaddedAt left right length size) :
    PaddedPlace ((left.take length).reverse ++ behind) ((right.take size).reverse ++ other) (left.drop length)
      (right.drop size) := by
  refine of_padded ?_ cut.back
  rw [List.reverse_append, List.reverse_append, List.reverse_reverse, List.reverse_reverse]
  exact before.append cut.front

theorem symbol {symbol : Symbol} {behind other left right : Text}
    (place : PaddedPlace behind other (symbol :: left) (symbol :: right)) (inside : symbol ≠ newline)
    (later : Padded left right) : PaddedPlace (symbol :: behind) (symbol :: other) left right := by
  have before := place.before fun same => inside (Option.some.inj same)
  have moved := past before ((PaddedAt.zero later).symbol inside)
  exact moved

end PaddedPlace

/-- Behind two such places the same is seen. -/
theorem behind_padded {behind other : Text} (before : Padded behind.reverse other.reverse) :
    other.head?.any Symbol.isWord = behind.head?.any Symbol.isWord ∧
      ∀ after, isKeywordPlace other after = isKeywordPlace behind after := by
  rcases before.last_line with ⟨-, same⟩ | ⟨above, upper, line, -, behindEq, otherEq⟩
  · rw [List.reverse_injective same]
    exact ⟨rfl, fun _ => rfl⟩
  · have split : ∀ {text lines : Text}, text.reverse = lines ++ newline :: line →
        text = line.reverse ++ (lines ++ [newline]).reverse := by
      intro text lines same
      rw [← List.reverse_reverse text, same]
      simp
    rw [split behindEq, split otherEq]
    constructor
    · rw [any_head?_above (.append_newline above) _ _ (by decide),
        any_head?_above (.append_newline upper) _ _ (by decide)]
    · intro after
      rw [isKeywordPlace_above (.append_newline above), isKeywordPlace_above (.append_newline upper)]

/-! ### The search for an end -/

namespace Block

/-- A token that is no `def` is read alike, and on its line. -/
theorem read_padded (block : Block) {behind other left right : Text} (before : Padded behind.reverse other.reverse)
    (padded : Padded left right) (nonempty : left ≠ []) (inside : left.head? ≠ some newline) :
    block.read other right = block.read behind left ∧ newline ∉ left.take (advance (block.read behind left)) ∨
      block.read other right = block.readDef (Header.read? right) ∧
        block.read behind left = block.readDef (Header.read? left) ∧ newline ∉ left.take 3 := by
  have seen : ∀ text : Text, block.read other text = block.read behind text := by
    intro text
    simp only [read, (behind_padded before).2]
  rw [seen]
  rcases padded.line_cases with ⟨absent, rfl⟩ | ⟨line, pads, below, lower, absent, fills, rfl, rfl, -⟩
  · exact Or.inl ⟨rfl, fun member => absent (List.mem_of_mem_take member)⟩
  have started : line ≠ [] := by
    rintro rfl
    exact inside rfl
  obtain ⟨stop, rest, blank, tailEq⟩ : ∃ (stop : Symbol) (rest : Text), stop.isBlank = true ∧
      pads ++ newline :: lower = stop :: rest := by
    cases pads with
    | nil => exact ⟨newline, lower, by decide, rfl⟩
    | cons pad others => exact ⟨pad, _, isBlank_of_isFiller (fills pad List.mem_cons_self), rfl⟩
  rw [tailEq]
  rcases block.read_stop behind started with same | ⟨three, same⟩
  · left
    rw [same stop rest blank, same newline below (by decide)]
    have within := (block.read_bounds behind started).2
    rw [List.take_append_of_le_length within]
    exact ⟨rfl, fun member => absent (List.mem_of_mem_take member)⟩
  · right
    refine ⟨same stop rest blank, same newline below (by decide), ?_⟩
    rw [List.take_append_of_le_length three]
    exact fun member => absent (List.mem_of_mem_take member)

theorem extent_newline (block : Block) (behind below : Text) :
    block.extent behind (newline :: below) =
      Block.extent { block with atStatement := true, awaitsDo := false } (newline :: behind) below + 1 := by
  rw [Search.extent_token (List.cons_ne_nil _ _) (stops_cons (by decide) below), read_newline, Nat.add_comm]
  rfl

theorem extent_fillers (block : Block) (behind rest : Text) {pads : Text}
    (fills : ∀ symbol ∈ pads, isFiller symbol = true) :
    block.extent behind (pads ++ rest) = pads.length + block.extent (pads.reverse ++ behind) rest := by
  have finish := (Search.Reaches.fillers block behind rest fills).finish
  change (pads.reverse ++ behind).length + block.extent (pads.reverse ++ behind) rest =
    behind.length + block.extent behind (pads ++ rest) at finish
  rw [List.length_append, List.length_reverse] at finish
  omega

/-- What follows a head is searched alike, wherever the padding of its line belongs. -/
theorem extent_after_head (block : Block) {behind other left right : Text} {length size : Nat}
    (ends : EndsAlike left right length size)
    (later : ∀ middle, PaddedAt left right length middle →
      PaddedAt (left.drop length) (right.drop middle)
        (block.extent ((left.take length).reverse ++ behind) (left.drop length))
        (block.extent ((right.take middle).reverse ++ other) (right.drop middle))) :
    PaddedAt left right (length + block.extent ((left.take length).reverse ++ behind) (left.drop length))
      (size + block.extent ((right.take size).reverse ++ other) (right.drop size)) := by
  obtain ⟨middle, pads, cut, rfl, dropped, fills, -⟩ := ends
  have taken : right.take (middle + pads.length) = right.take middle ++ pads := by
    rw [List.take_add, dropped, List.take_left]
  have searched := later middle cut
  rw [dropped, extent_fillers _ _ _ fills, ← dropped] at searched
  rw [taken, List.reverse_append, List.append_assoc, Nat.add_assoc]
  exact cut.add searched

/-- A token that starts two such places is passed alike, if the search goes on alike behind every cut. -/
theorem extent_token_padded (block : Block) {behind other left right : Text}
    (before : Padded behind.reverse other.reverse) (padded : Padded left right) (nonempty : left ≠ [])
    (inside : left.head? ≠ some newline) (visible : ∀ first ∈ left.head?, isFiller first = false)
    (onward : ∀ (next : Block) {length size : Nat}, 0 < size → PaddedAt left right length size →
      PaddedAt (left.drop length) (right.drop size)
        (next.extent ((left.take length).reverse ++ behind) (left.drop length))
        (next.extent ((right.take size).reverse ++ other) (right.drop size))) :
    PaddedAt left right (block.extent behind left) (block.extent other right) := by
  have onLine : ∀ (next : Block) {length : Nat}, 0 < length → newline ∉ left.take length →
      PaddedAt left right (length + next.extent ((left.take length).reverse ++ behind) (left.drop length))
        (length + next.extent ((right.take length).reverse ++ other) (right.drop length)) := by
    intro next length positive absent
    have cut := PaddedAt.same padded absent
    exact cut.add (onward next positive cut)
  have started : right ≠ [] := by
    rintro rfl
    cases padded
    exact nonempty rfl
  have rightVisible : ∀ first ∈ right.head?, isFiller first = false := by
    cases padded with
    | nil => exact visible
    | symbol => exact visible
    | line => exact visible
    | pad => exact absurd rfl inside
  rw [Search.extent_token nonempty visible, Search.extent_token started rightVisible]
  rcases block.read_padded before padded nonempty inside with ⟨same, absent⟩ | ⟨rightDef, leftDef, absent⟩
  · rw [same]
    have bounds := block.read_bounds behind nonempty
    cases reading : block.read behind left with
    | closed length =>
        rw [reading] at absent
        exact .same padded absent
    | goesOn next length =>
        rw [reading] at absent bounds
        exact onLine next bounds.1 absent
  · rw [rightDef, leftDef]
    rcases Header.read?_padded padded with ⟨noLeft, noRight⟩ | ⟨header, head, leftHead, rightHead, alike⟩
    · rw [noLeft, noRight]
      exact onLine _ (by decide) absent
    · rw [leftHead, rightHead, readDef, readDef, alike.endless]
      refine extent_after_head _ alike.ends fun middle cut => onward _ ?_ cut
      -- the head is not empty, so neither is the part of the padded code before the cut
      by_contra none
      have front := cut.front
      have bounds := Header.headerEnd_bounds leftHead
      rw [Nat.eq_zero_of_not_pos none, List.take_zero] at front
      generalize headEq : left.take header.headerEnd = taken at front
      cases front
      have size := congrArg List.length headEq
      rw [List.length_take_of_le bounds.2, List.length_nil] at size
      omega

/-- The block ends at the same place of padded code. -/
theorem extent_padded (block : Block) {behind other left right : Text} (place : PaddedPlace behind other left right) :
    PaddedAt left right (block.extent behind left) (block.extent other right) := by
  induction size : right.length using Nat.strong_induction_on generalizing block behind other left right with
  | _ length ih =>
      have shorter : ∀ {symbol : Symbol} {rest : Text}, right = symbol :: rest → rest.length < length := by
        rintro symbol rest rfl
        rw [← size, List.length_cons]
        omega
      have padded := place.ahead
      cases padded with
      | nil => exact .zero .nil
      | @pad pad left right fills later =>
          have cut := ih right.length (shorter rfl) block (place.pad fills later) rfl
          rw [extent_newline] at cut ⊢
          rw [Search.extent_filler block other right fills, Nat.add_comm 1]
          exact cut.pad fills
      | @line left right later =>
          rw [extent_newline, extent_newline]
          exact (ih right.length (shorter rfl) _ (place.line later) rfl).line
      | @symbol symbol left right inside later =>
          by_cases fills : isFiller symbol = true
          · have cut := ih right.length (shorter rfl) block (place.symbol inside later) rfl
            rw [Search.extent_filler block behind left fills, Search.extent_filler block other right fills,
              Nat.add_comm 1, Nat.add_comm 1]
            exact cut.symbol inside
          · have noLine : (symbol :: left).head? ≠ some newline := fun same => inside (Option.some.inj same)
            have before := place.before noLine
            refine block.extent_token_padded before place.ahead (List.cons_ne_nil _ _) noLine
              (stops_cons (Bool.eq_false_iff.mpr fills) left) fun next count further positive cut => ?_
            refine ih _ ?_ next (.past before cut) rfl
            rw [← size, List.length_drop, List.length_cons]
            omega

end Block

/-! ### Definitions -/

theorem Padded.count_dropLast {left right : Text} (padded : Padded left right) :
    right.dropLast.count newline = left.dropLast.count newline := by
  have total := padded.count_newline
  rcases padded.last_line with ⟨-, rfl⟩ | ⟨above, upper, line, -, rfl, rfl⟩
  · rfl
  · rw [List.count_append, List.count_append, Nat.add_right_cancel_iff] at total
    rw [List.dropLast_append_cons, List.dropLast_append_cons, List.count_append, List.count_append, total]

/-- The last symbols before a cut are on the same line. -/
theorem PaddedAt.count_before {left right : Text} {length size : Nat} (cut : PaddedAt left right length size)
    (inLeft : length ≤ left.length) (inRight : size ≤ right.length) :
    (right.take (size - 1)).count newline = (left.take (length - 1)).count newline := by
  have last : ∀ {text : Text} {count : Nat}, count ≤ text.length → (text.take count).dropLast = text.take (count - 1) := by
    intro text count within
    rw [List.dropLast_eq_take, List.length_take_of_le within, List.take_take, Nat.min_eq_left (by omega)]
  rw [← last inLeft, ← last inRight]
  exact cut.front.count_dropLast

/-- The rest of a line has no newline. -/
theorem count_on_line {text : Text} {length count : Nat} (within : count ≤ (firstLine (text.drop length)).length) :
    (text.take (length + count)).count newline = (text.take length).count newline := by
  have absent : newline ∉ (text.drop length).take count := by
    intro member
    rw [← Nat.min_eq_left within, ← List.take_take, Text.take_firstLine] at member
    exact Text.newline_not_mem_firstLine _ (List.mem_of_mem_take member)
  rw [List.take_add, List.count_append, List.count_eq_zero_of_not_mem absent, Nat.add_zero]

theorem Header.isEndless_head {text : Text} (endless : isEndless text = true) :
    ∃ first rest, text = first :: rest ∧ first ≠ newline := by
  obtain ⟨gaps, tail, rfl, -, inGaps, stops⟩ := exists_run isGap text
  unfold isEndless at endless
  rw [dropWhile_run inGaps stops] at endless
  cases gaps with
  | cons gap others => exact ⟨gap, others ++ tail, rfl, ne_newline_of_isGap (inGaps gap List.mem_cons_self)⟩
  | nil =>
      cases tail with
      | nil => cases endless
      | cons first after =>
          simp only [Bool.and_eq_true, decide_eq_true_eq] at endless
          refine ⟨first, after, rfl, ?_⟩
          rw [endless.1]
          decide

/-- The last symbol of an expression after a head is on the line on which the head ends. -/
theorem count_expression {text : Text} {length : Nat} (expression : Header.isEndless (text.drop length) = true) :
    (text.take (length + (firstLine (text.drop length)).length - 1)).count newline =
      (text.take length).count newline := by
  obtain ⟨first, rest, body, inside⟩ := Header.isEndless_head expression
  have started : 0 < (firstLine (text.drop length)).length := by
    rw [body, firstLine, List.takeWhile_cons_of_pos (by simpa using inside), List.length_cons]
    exact Nat.succ_pos _
  rw [Nat.add_sub_assoc started]
  exact count_on_line (Nat.sub_le _ _)

namespace Definition

theorem opens_padded {behind other left right : Text} (before : Padded behind.reverse other.reverse)
    (padded : Padded left right) : opens other right = opens behind left := by
  obtain ⟨word, place⟩ := behind_padded before
  have starts : Text.startsWith right "def" = Text.startsWith left "def" :=
    padded.congr fun line _ _ stop below blank _ =>
      startsWith_stop (not_mem_of_isBlank blank (by decide)) line below
  unfold opens
  rw [starts, word]
  by_cases isDef : Text.startsWith left "def" = true
  · obtain ⟨rest, rfl⟩ := List.isPrefixOf_iff_prefix.mp isDef
    obtain ⟨later, rfl, restPadded⟩ := padded.of_front (by decide)
    have dropped : ∀ tail : Text, (Text.ofString "def" ++ tail).drop 3 = tail := fun tail => rfl
    have next : later.head?.any Symbol.isWord = rest.head?.any Symbol.isWord :=
      restPadded.any_head? fun symbol blank => Symbol.isWord_of_isBlank blank
    have after : isKeywordPlace behind later = isKeywordPlace behind rest :=
      restPadded.congr fun line _ _ stop below blank _ => isKeywordPlace_stop behind line blank below
    rw [dropped, dropped, next, place, after]
  · rw [Bool.eq_false_iff.mpr isDef]
    rfl

/-- The last line of a definition is the same in padded code. -/
theorem body_padded {behind other left right : Text} {header head : Header}
    (before : Padded behind.reverse other.reverse) (leftHead : Header.read? left = some header)
    (rightHead : Header.read? right = some head) (alike : Header.Alike left right header head) :
    (right.take (head.headerEnd + bodyLength head.endless ((right.take head.headerEnd).reverse ++ other)
        (right.drop head.headerEnd) - 1)).count newline =
      (left.take (header.headerEnd + bodyLength header.endless ((left.take header.headerEnd).reverse ++ behind)
        (left.drop header.headerEnd) - 1)).count newline := by
  have leftEndless := Header.endless_eq leftHead
  have rightEndless := Header.endless_eq rightHead
  rw [alike.endless] at rightEndless ⊢
  have leftBounds := Header.headerEnd_bounds leftHead
  have rightBounds := Header.headerEnd_bounds rightHead
  unfold bodyLength
  cases endless : header.endless with
  | false =>
      have cut := Block.extent_after_head Block.opened alike.ends fun middle cut =>
        Block.opened.extent_padded (.past before cut)
      have leftWithin := Block.opened.extent_le ((left.take header.headerEnd).reverse ++ behind)
        (left.drop header.headerEnd)
      have rightWithin := Block.opened.extent_le ((right.take head.headerEnd).reverse ++ other)
        (right.drop head.headerEnd)
      rw [List.length_drop] at leftWithin rightWithin
      exact cut.count_before (by omega) (by omega)
  | true =>
      -- the body is an expression on the line of the head, so no padding stands between the two
      rw [endless] at leftEndless rightEndless
      obtain ⟨first, rest, body, inside⟩ := Header.isEndless_head leftEndless.symm
      have cut := alike.ends.of_inside (by rw [body]; exact fun same => inside (Option.some.inj same))
      rw [if_pos rfl, if_pos rfl, count_expression leftEndless.symm, count_expression rightEndless.symm]
      exact cut.front.count_newline

/-- Whether a definition is the same in padded code: it says the same, starts and is named at the same places of their
lines, and ends on the same line. -/
structure Alike (code copy : Text) (definition other : Definition) : Prop where
  name : other.header.name = definition.header.name
  receiver : other.header.receiver = definition.header.receiver
  argumentCount : countArguments other.header.parameters = countArguments definition.header.parameters
  start : Padded (code.take definition.start) (copy.take other.start)
  nameBegin : Padded (code.take definition.header.nameBegin) (copy.take other.header.nameBegin)
  inCode : definition.header.nameBegin ≤ code.length ∧ other.header.nameBegin ≤ copy.length
  stop : (copy.take (other.stop - 1)).count newline = (code.take (definition.stop - 1)).count newline

theorem at?_padded {behind other left right : Text} (before : Padded behind.reverse other.reverse)
    (padded : Padded left right) :
    at? behind left = none ∧ at? other right = none ∨
      ∃ first second, at? behind left = some first ∧ at? other right = some second ∧
        Alike (behind.reverse ++ left) (other.reverse ++ right) first second := by
  rw [at?_eq, at?_eq, opens_padded before padded]
  cases opens behind left with
  | false => exact Or.inl ⟨rfl, rfl⟩
  | true =>
      rw [if_pos rfl, if_pos rfl]
      rcases Header.read?_padded padded with ⟨noLeft, noRight⟩ | ⟨header, head, leftHead, rightHead, alike⟩
      · rw [noLeft, noRight]
        exact Or.inl ⟨rfl, rfl⟩
      right
      have taken : ∀ (back ahead : Text) (count : Nat),
          (back.reverse ++ ahead).take (back.length + count) = back.reverse ++ ahead.take count := by
        intro back ahead count
        rw [← back.length_reverse, List.take_length_add_append]
      have leftBounds := Header.headerEnd_bounds leftHead
      have rightBounds := Header.headerEnd_bounds rightHead
      have last := body_padded before leftHead rightHead alike
      rw [leftHead, rightHead]
      refine ⟨_, _, rfl, rfl, alike.name, alike.receiver, alike.argumentCount, ?_, ?_, ?_, ?_⟩
      · change Padded ((behind.reverse ++ left).take behind.length) ((other.reverse ++ right).take other.length)
        rw [← Nat.add_zero behind.length, ← Nat.add_zero other.length, taken, taken, List.take_zero, List.take_zero,
          List.append_nil, List.append_nil]
        exact before
      · change Padded ((behind.reverse ++ left).take (header.nameBegin + behind.length))
          ((other.reverse ++ right).take (head.nameBegin + other.length))
        rw [Nat.add_comm header.nameBegin, Nat.add_comm head.nameBegin, taken, taken, alike.nameBegin]
        exact before.append (PaddedAt.same padded alike.onLine).front
      · change header.nameBegin + behind.length ≤ _ ∧ head.nameBegin + other.length ≤ _
        have inCode := alike.inCode
        rw [List.length_append, List.length_append, List.length_reverse, List.length_reverse]
        omega
      · have counted : ∀ (back ahead : Text) {count : Nat} (more : Nat), 0 < count →
            ((back.reverse ++ ahead).take (back.length + count + more - 1)).count newline =
              back.reverse.count newline + (ahead.take (count + more - 1)).count newline := by
          intro back ahead count more positive
          have size : back.length + count + more - 1 = back.length + (count + more - 1) := by omega
          rw [size, taken, List.count_append]
        dsimp only
        rw [counted _ _ _ leftBounds.1, counted _ _ _ rightBounds.1, last, before.count_newline]

theorem at?_blank {behind rest : Text} {symbol : Symbol} (blank : symbol.isBlank = true) :
    at? behind (symbol :: rest) = none := by
  have noDef : Text.startsWith (symbol :: rest) "def" = false :=
    startsWith_stop (not_mem_of_isBlank blank (by decide)) [] rest
  rw [at?_eq, opens, noDef]
  rfl

theorem within_padded {behind other left right : Text} (place : PaddedPlace behind other left right) :
    List.Forall₂ (Alike (behind.reverse ++ left) (other.reverse ++ right)) (Definition.within behind left)
      (Definition.within other right) := by
  have passed : ∀ (symbol : Symbol) (back rest : Text), back.reverse ++ symbol :: rest = (symbol :: back).reverse ++ rest := by
    intro symbol back rest
    simp
  have padded := place.ahead
  induction padded generalizing behind other with
  | nil => exact .nil
  | @symbol symbol left right inside later ih =>
      have before := place.before fun same => inside (Option.some.inj same)
      have rest := ih (place.symbol inside later)
      rw [← passed, ← passed] at rest
      rw [Definition.within, Definition.within]
      refine List.rel_append ?_ rest
      rcases at?_padded before place.ahead with ⟨noLeft, noRight⟩ | ⟨first, second, leftAt, rightAt, alike⟩
      · rw [noLeft, noRight]
        exact .nil
      · rw [leftAt, rightAt]
        exact .cons alike .nil
  | @line left right later ih =>
      have rest := ih (place.line later)
      rw [← passed, ← passed] at rest
      rw [Definition.within, Definition.within, at?_blank (by decide), at?_blank (by decide)]
      exact rest
  | @pad pad left right fills later ih =>
      have rest := ih (place.pad fills later)
      rw [← passed] at rest
      rw [@Definition.within.eq_2 other, at?_blank (isBlank_of_isFiller fills)]
      exact rest

/-- Padded code has the same definitions, one for one. -/
theorem all_padded {code copy : Text} (padded : Padded code copy) :
    List.Forall₂ (Alike code copy) (all code) (all copy) := by
  have start : Padded ([] : Text).reverse ([] : Text).reverse := .nil
  exact within_padded (.of_padded start padded)

end Definition

end AccessorLint.Source
