import Mathlib
import AccessorLint.Proofs.Blocks
set_option autoImplicit false

/-!
Brackets by counting.

The depth of a place is the number of brackets opened before it less the number of those closed.  An opening bracket is
closed at the first place where both numbers are equal, and the arguments of a list are the parts with content between
the commas at depth zero.  Both hold of any text: brackets need not balance, and the depth may be negative.
-/

namespace AccessorLint.Source

/-- How many more symbols of a text open a bracket than close one. -/
def excess (opens closes : Symbol → Bool) (text : Text) : Int :=
  text.countP opens - text.countP closes

section

variable {opens closes : Symbol → Bool}

@[simp]
theorem excess_nil : excess opens closes [] = 0 := rfl

theorem excess_append (left right : Text) :
    excess opens closes (left ++ right) = excess opens closes left + excess opens closes right := by
  simp only [excess, List.countP_append, Nat.cast_add]
  omega

theorem excess_cons (symbol : Symbol) (rest : Text) :
    excess opens closes (symbol :: rest) = excess opens closes [symbol] + excess opens closes rest :=
  excess_append [symbol] rest

theorem excess_singleton (symbol : Symbol) :
    excess opens closes [symbol] = (if opens symbol then 1 else 0) - (if closes symbol then 1 else 0) := by
  simp only [excess, List.countP_singleton, Nat.cast_ite, Nat.cast_one, Nat.cast_zero]

end

/-! ### Partners -/

section

variable {opening closing : Symbol}

def unclosed (opening closing : Symbol) (text : Text) : Int :=
  excess (· == opening) (· == closing) text

theorem closingSpan_cons (distinct : opening ≠ closing) (depth : Int) (symbol : Symbol) (rest : Text) :
    closingSpan opening closing depth (symbol :: rest) =
      if symbol = closing ∧ depth + unclosed opening closing [symbol] = 0 then 0
      else 1 + closingSpan opening closing (depth + unclosed opening closing [symbol]) rest := by
  rw [closingSpan, unclosed, excess_singleton]
  by_cases isOpening : symbol = opening
  · simp [isOpening, distinct]
  · by_cases isClosing : symbol = closing
    · simp [isClosing, distinct.symm, Int.sub_eq_add_neg]
    · simp [isOpening, isClosing]

theorem depth_pos_of_not_stop {depth : Int} (positive : 0 < depth) {symbol : Symbol}
    (goesOn : ¬(symbol = closing ∧ depth + unclosed opening closing [symbol] = 0)) :
    0 < depth + unclosed opening closing [symbol] := by
  rw [unclosed, excess_singleton] at goesOn ⊢
  by_cases isClosing : symbol = closing
  · simp only [isClosing, true_and, beq_self_eq_true, if_true] at goesOn ⊢
    split_ifs at goesOn ⊢ <;> omega
  · have noClosing : (symbol == closing) = false := by simpa using isClosing
    simp only [noClosing, Bool.false_eq_true, if_false]
    split_ifs <;> omega

theorem depth_pos_of_le_closingSpan (distinct : opening ≠ closing) {depth : Int} (positive : 0 < depth) {text : Text}
    {length : Nat} (before : length ≤ closingSpan opening closing depth text) :
    0 < depth + unclosed opening closing (text.take length) := by
  induction text generalizing depth length with
  | nil => simpa [unclosed] using positive
  | cons symbol rest ih =>
      cases length with
      | zero => simpa [unclosed] using positive
      | succ shorter =>
          rw [closingSpan_cons distinct] at before
          split at before
          · omega
          · -- a depth that is positive gets to zero only where the search stops
            rename_i goesOn
            have later := ih (depth_pos_of_not_stop positive goesOn) (by omega : shorter ≤ _)
            rw [List.take_succ_cons, unclosed, excess_cons, ← Int.add_assoc]
            exact later

theorem closingSpan_closes (distinct : opening ≠ closing) {depth : Int} {text : Text}
    (stops : closingSpan opening closing depth text < text.length) :
    text[closingSpan opening closing depth text]? = some closing ∧
      depth + unclosed opening closing (text.take (closingSpan opening closing depth text + 1)) = 0 := by
  induction text generalizing depth with
  | nil => cases stops
  | cons symbol rest ih =>
      rw [closingSpan_cons distinct] at stops ⊢
      split at stops
      · rename_i here
        rw [if_pos here]
        exact ⟨congrArg some here.1, here.2⟩
      · rename_i goesOn
        rw [if_neg goesOn, Nat.add_comm 1]
        rw [List.length_cons] at stops
        obtain ⟨found, zero⟩ := ih (Nat.lt_of_succ_lt_succ (Nat.add_comm 1 _ ▸ stops))
        refine ⟨found, ?_⟩
        rw [List.take_succ_cons, unclosed, excess_cons, ← Int.add_assoc]
        exact zero

theorem unclosed_cons_opening (distinct : opening ≠ closing) (text : Text) :
    unclosed opening closing (opening :: text) = 1 + unclosed opening closing text := by
  have one : excess (· == opening) (· == closing) [opening] = 1 := by
    rw [excess_singleton]
    simp [distinct]
  rw [unclosed, excess_cons, one]
  rfl

/-- Whether the code from an offset through a later one has as many opening symbols as closing ones. -/
structure BalancesAt (opening closing : Symbol) (code : Text) (offset last : Nat) : Prop where
  after : offset < last
  inside : last < code.length
  balanced : (code.extract offset (last + 1)).count opening = (code.extract offset (last + 1)).count closing

variable (front : Text) {tail : Text}

theorem closingOffset_eq (distinct : opening ≠ closing) :
    closingOffset opening closing (front ++ opening :: tail) front.length =
      front.length + closingSpan opening closing 1 tail + 1 := by
  have one : (0 : Int) + unclosed opening closing [opening] = 1 := by
    rw [unclosed_cons_opening distinct]
    rfl
  rw [closingOffset, List.drop_left, closingSpan_cons distinct, if_neg (fun stop => distinct stop.1), one,
    List.length_append]
  omega

theorem extract_through (length : Nat) :
    (front ++ opening :: tail).extract front.length (front.length + length + 1 + 1) =
      opening :: tail.take (length + 1) := by
  have taken : front.length + length + 1 + 1 - front.length = length + 1 + 1 := by omega
  rw [List.extract_eq_take_drop, List.drop_left, taken, List.take_succ_cons]

theorem length_opened : (front ++ opening :: tail).length = front.length + tail.length + 1 := by
  rw [List.length_append, List.length_cons, Nat.add_assoc]

theorem balancesAt_iff (distinct : opening ≠ closing) {length : Nat} :
    BalancesAt opening closing (front ++ opening :: tail) front.length (front.length + length + 1) ↔
      length < tail.length ∧ 1 + unclosed opening closing (tail.take (length + 1)) = 0 := by
  rw [← unclosed_cons_opening distinct, ← extract_through front length]
  constructor
  · rintro ⟨-, inside, balanced⟩
    rw [length_opened] at inside
    exact ⟨by omega, Int.sub_eq_zero_of_eq (congrArg Nat.cast balanced)⟩
  · rintro ⟨inside, balanced⟩
    refine ⟨by omega, ?_, Int.ofNat_inj.mp (Int.eq_of_sub_eq_zero balanced)⟩
    rw [length_opened]
    omega

theorem not_balancesAt_of_lt (distinct : opening ≠ closing) {length : Nat}
    (before : length < closingSpan opening closing 1 tail) :
    ¬BalancesAt opening closing (front ++ opening :: tail) front.length (front.length + length + 1) := by
  intro balances
  have positive := depth_pos_of_le_closingSpan distinct (by decide : (0 : Int) < 1) (show length + 1 ≤ _ from before)
  have zero := ((balancesAt_iff front distinct).mp balances).2
  omega

theorem closingOffset_isLeast (distinct : opening ≠ closing)
    (stops : closingSpan opening closing 1 tail < tail.length) :
    IsLeast {last | BalancesAt opening closing (front ++ opening :: tail) front.length last}
      (closingOffset opening closing (front ++ opening :: tail) front.length) := by
  rw [closingOffset_eq front distinct]
  refine ⟨(balancesAt_iff front distinct).mpr ⟨stops, (closingSpan_closes distinct stops).2⟩, ?_⟩
  intro last balances
  obtain ⟨length, rfl⟩ := Nat.exists_eq_add_of_lt balances.after
  by_contra earlier
  exact not_balancesAt_of_lt front distinct (by omega) balances

theorem not_balancesAt (distinct : opening ≠ closing) (ended : tail.length ≤ closingSpan opening closing 1 tail)
    (last : Nat) : ¬BalancesAt opening closing (front ++ opening :: tail) front.length last := by
  intro balances
  obtain ⟨length, rfl⟩ := Nat.exists_eq_add_of_lt balances.after
  have inside := ((balancesAt_iff front distinct).mp balances).1
  exact not_balancesAt_of_lt front distinct (by omega) balances

theorem closingOffset_lt_iff (distinct : opening ≠ closing) :
    closingOffset opening closing (front ++ opening :: tail) front.length < (front ++ opening :: tail).length ↔
      closingSpan opening closing 1 tail < tail.length := by
  rw [closingOffset_eq front distinct, length_opened]
  omega

theorem closingOffset_eq_iff_isLeast (distinct : opening ≠ closing) {last : Nat} :
    closingOffset opening closing (front ++ opening :: tail) front.length = last ∧
        last < (front ++ opening :: tail).length ↔
      IsLeast {last | BalancesAt opening closing (front ++ opening :: tail) front.length last} last := by
  constructor
  · rintro ⟨rfl, inside⟩
    exact closingOffset_isLeast front distinct ((closingOffset_lt_iff front distinct).mp inside)
  · intro least
    have stops : closingSpan opening closing 1 tail < tail.length := by
      by_contra ended
      exact not_balancesAt front distinct (Nat.le_of_not_lt ended) last least.1
    exact ⟨(closingOffset_isLeast front distinct stops).unique least, least.1.inside⟩

theorem closingOffset_eq_length_iff (distinct : opening ≠ closing) :
    closingOffset opening closing (front ++ opening :: tail) front.length = (front ++ opening :: tail).length ↔
      ∀ last, ¬BalancesAt opening closing (front ++ opening :: tail) front.length last := by
  have atMost := closingSpan_le opening closing 1 tail
  constructor
  · intro atEnd
    rw [closingOffset_eq front distinct, length_opened] at atEnd
    exact not_balancesAt front distinct (by omega)
  · intro nowhere
    have ended : ¬closingSpan opening closing 1 tail < tail.length := by
      intro stops
      exact nowhere _ (closingOffset_isLeast front distinct stops).1
    rw [closingOffset_eq front distinct, length_opened]
    omega

theorem getElem?_closingOffset (distinct : opening ≠ closing)
    (inside : closingOffset opening closing (front ++ opening :: tail) front.length <
      (front ++ opening :: tail).length) :
    (front ++ opening :: tail)[closingOffset opening closing (front ++ opening :: tail) front.length]? =
      some closing := by
  have stops := (closingOffset_lt_iff front distinct).mp inside
  rw [closingOffset_eq front distinct, Nat.add_assoc, List.getElem?_append_right (Nat.le_add_right _ _),
    Nat.add_sub_cancel_left, List.getElem?_cons_succ]
  exact (closingSpan_closes distinct stops).1

theorem count_lt_of_prefix (distinct : opening ≠ closing) {read : Text}
    (isPrefix : read <+: opening :: tail.take (closingSpan opening closing 1 tail + 1)) (nonempty : read ≠ [])
    (proper : read ≠ opening :: tail.take (closingSpan opening closing 1 tail + 1)) :
    read.count closing < read.count opening := by
  rcases List.prefix_cons_iff.mp isPrefix with empty | ⟨inner, rfl, innerPrefix⟩
  · exact absurd empty nonempty
  · -- the inner part leaves out the partner at least
    have shorter : inner.length ≤ closingSpan opening closing 1 tail := by
      by_contra longer
      have taken := innerPrefix.length_le
      refine proper (congrArg _ (innerPrefix.eq_of_length_le ?_))
      rw [List.length_take]
      omega
    have innerEq : tail.take inner.length = inner :=
      (List.prefix_iff_eq_take.mp (innerPrefix.trans (List.take_prefix _ _))).symm
    have positive := depth_pos_of_le_closingSpan distinct (by decide : (0 : Int) < 1) shorter
    rw [innerEq, ← unclosed_cons_opening distinct] at positive
    exact Int.ofNat_lt.mp (Int.lt_of_sub_pos positive)

theorem exists_of_getElem? {code : Text} {offset : Nat} (opens : code[offset]? = some opening) :
    ∃ front tail, code = front ++ opening :: tail ∧ offset = front.length := by
  obtain ⟨inside, found⟩ := List.getElem?_eq_some_iff.mp opens
  refine ⟨code.take offset, code.drop (offset + 1), ?_, (List.length_take_of_le (Nat.le_of_lt inside)).symm⟩
  rw [← found, ← List.drop_eq_getElem_cons inside, List.take_append_drop]

/-- The search for the partner of an opening symbol finds the first later place at which as many symbols have closed as
opened, and the end of the code exactly if there is none.  At the partner stands a closing symbol, and before it more
symbols have opened than closed. -/
theorem bracket_closed_at_first_balance (distinct : opening ≠ closing) {code : Text} {offset : Nat}
    (opens : code[offset]? = some opening) :
    (∀ last, closingOffset opening closing code offset = last ∧ last < code.length ↔
      IsLeast {last | BalancesAt opening closing code offset last} last) ∧
    (∀ last, closingOffset opening closing code offset = last → last < code.length →
      code[last]? = some closing ∧
        ∀ read, read <+: code.extract offset (last + 1) → read ≠ [] → read ≠ code.extract offset (last + 1) →
          read.count closing < read.count opening) ∧
    (closingOffset opening closing code offset = code.length ↔
      ∀ last, ¬BalancesAt opening closing code offset last) := by
  obtain ⟨front, tail, rfl, rfl⟩ := exists_of_getElem? opens
  refine ⟨fun last => closingOffset_eq_iff_isLeast front distinct, ?_, closingOffset_eq_length_iff front distinct⟩
  rintro last rfl inside
  refine ⟨getElem?_closingOffset front distinct inside, ?_⟩
  rw [closingOffset_eq front distinct, extract_through]
  exact fun read => count_lt_of_prefix distinct

theorem nested_parentheses_closed :
    let code : Text := ")f(a(b)c))("
    (Symbol.glyph '(' ≠ .glyph ')' ∧ code[2]? = some (.glyph '(')) ∧
      IsLeast {last | BalancesAt (.glyph '(') (.glyph ')') code 2 last} 8 ∧ code[8]? = some (.glyph ')') ∧
      closingOffset (.glyph '(') (.glyph ')') code 10 = 11 ∧
      ∀ last, ¬BalancesAt (.glyph '(') (.glyph ')') code 10 last := by
  intro code
  have distinct : Symbol.glyph '(' ≠ .glyph ')' := by decide
  have opens : code[2]? = some (.glyph '(') := by decide
  obtain ⟨first, partner, -⟩ := bracket_closed_at_first_balance distinct opens
  obtain ⟨-, -, neverClosed⟩ :=
    bracket_closed_at_first_balance distinct (by decide : code[10]? = some (.glyph '('))
  have ended : closingOffset (.glyph '(') (.glyph ')') code 10 = 11 := by decide
  exact ⟨⟨distinct, opens⟩, (first 8).mp ⟨by decide, by decide⟩, (partner 8 (by decide) (by decide)).1, ended,
    neverClosed.mp ended⟩

end

/-! ### Arguments -/

/-- The number of brackets of all kinds that a text opens less the number of those that it closes. -/
def netDepth (text : Text) : Int :=
  excess (·.isOneOf "([\x7b") (·.isOneOf ")]\x7d") text

/-- The symbols of a text, each with the depth of brackets before it, for a text that stands at a depth. -/
def withDepths (depth : Int) (text : Text) : List (Symbol × Int) :=
  text.mapIdx fun offset symbol => (symbol, depth + netDepth (text.take offset))

def endsArgument (place : Symbol × Int) : Bool :=
  place.1 == .glyph ',' && place.2 == 0

/-- The parts of a text that stands at a depth, cut at the commas of depth zero. -/
def argumentPartsFrom (depth : Int) (text : Text) : List Text :=
  ((withDepths depth text).splitOnP endsArgument).map (List.map Prod.fst)

/-- The parts of a text between its commas of depth zero. -/
def argumentParts (text : Text) : List Text :=
  argumentPartsFrom 0 text

def hasContent (part : Text) : Bool :=
  part.any fun symbol => !symbol.isBlank

theorem withDepths_cons (depth : Int) (symbol : Symbol) (rest : Text) :
    withDepths depth (symbol :: rest) = (symbol, depth) :: withDepths (depth + netDepth [symbol]) rest := by
  have later : ∀ offset : Nat, depth + netDepth ((symbol :: rest).take (offset + 1)) =
      depth + netDepth [symbol] + netDepth (rest.take offset) := by
    intro offset
    rw [List.take_succ_cons, netDepth, excess_cons, ← Int.add_assoc]
    rfl
  have here : depth + netDepth ((symbol :: rest).take 0) = depth := Int.add_zero depth
  rw [withDepths, List.mapIdx_cons, here]
  simp only [later]
  rfl

theorem withDepths_append (depth : Int) (left right : Text) :
    withDepths depth (left ++ right) = withDepths depth left ++ withDepths (depth + netDepth left) right := by
  induction left generalizing depth with
  | nil => simp [withDepths, netDepth]
  | cons symbol rest ih =>
      rw [List.cons_append, withDepths_cons, ih, withDepths_cons, Int.add_assoc, netDepth, netDepth, netDepth,
        ← excess_cons]
      rfl

theorem argumentPartsFrom_append {depth : Int} {left : Text} (outside : depth + netDepth left = 0) (right : Text) :
    argumentPartsFrom depth (left ++ .glyph ',' :: right) =
      argumentPartsFrom depth left ++ argumentPartsFrom 0 right := by
  have comma : netDepth [.glyph ','] = 0 := by decide
  rw [argumentPartsFrom, withDepths_append, outside, withDepths_cons, comma, Int.add_zero,
    List.splitOnP_append_cons _ _ (by decide), List.map_append]
  rfl

theorem argumentPartsFrom_cons {depth : Int} {symbol : Symbol} (inside : ¬(symbol = .glyph ',' ∧ depth = 0))
    (rest : Text) :
    ∃ first later, argumentPartsFrom (depth + netDepth [symbol]) rest = first :: later ∧
      argumentPartsFrom depth (symbol :: rest) = (symbol :: first) :: later := by
  have goesOn : ¬endsArgument (symbol, depth) = true := by simpa [endsArgument] using inside
  obtain ⟨first, later, parts⟩ := List.exists_cons_of_ne_nil
    (List.splitOnP_ne_nil endsArgument (withDepths (depth + netDepth [symbol]) rest))
  refine ⟨first.map Prod.fst, later.map (List.map Prod.fst), ?_, ?_⟩
  · rw [argumentPartsFrom, parts, List.map_cons]
  · rw [argumentPartsFrom, withDepths_cons, List.splitOnP_cons_eq_if_modifyHead, if_neg goesOn, parts]
    rfl

/-! ### Counting arguments -/

theorem netDepth_singleton_of_opening {symbol : Symbol} (opens : symbol.isOneOf "([\x7b" = true) :
    netDepth [symbol] = 1 := by
  have kinds : symbol = .glyph '(' ∨ symbol = .glyph '[' ∨ symbol = .glyph '\x7b' := by
    simpa [Symbol.isOneOf] using opens
  rcases kinds with rfl | rfl | rfl <;> rfl

theorem netDepth_singleton_of_not_opening {symbol : Symbol} (noOpening : symbol.isOneOf "([\x7b" = false) :
    netDepth [symbol] = if symbol.isOneOf ")]\x7d" then -1 else 0 := by
  rw [netDepth, excess_singleton, noOpening, if_neg Bool.false_ne_true]
  split_ifs <;> rfl

theorem read_comma (ended : Nat) (content : Bool) :
    ArgumentCount.read ⟨0, ended, content⟩ (.glyph ',') = ⟨0, ended + (if content then 1 else 0), false⟩ := rfl

theorem read_of_not_comma {depth : Int} {symbol : Symbol} (inside : ¬(symbol = .glyph ',' ∧ depth = 0)) (ended : Nat)
    (content : Bool) :
    ArgumentCount.read ⟨depth, ended, content⟩ symbol =
      ⟨depth + netDepth [symbol], ended, content || !symbol.isBlank⟩ := by
  have goesOn : ¬(symbol = .glyph ',' && depth == 0) = true := by simpa using inside
  have change : (if symbol.isOneOf "([\x7b" then depth + 1 else if symbol.isOneOf ")]\x7d" then depth - 1 else depth) =
      depth + netDepth [symbol] := by
    split
    · rename_i opens
      rw [netDepth_singleton_of_opening opens]
    · rename_i noOpening
      rw [netDepth_singleton_of_not_opening (Bool.eq_false_iff.mpr noOpening)]
      split_ifs <;> omega
  rw [ArgumentCount.read, if_neg goesOn]
  dsimp only
  rw [change]

/-- Reading a text counts the part at hand together with the first part of the text, and the other parts by
themselves. -/
theorem ended_foldl_read (text : Text) (depth : Int) (ended : Nat) (content : Bool) :
    ∃ first later, argumentPartsFrom depth text = first :: later ∧
      (text.foldl ArgumentCount.read ⟨depth, ended, content⟩).close.ended =
        ended + (if content || hasContent first then 1 else 0) + later.countP hasContent := by
  induction text generalizing depth ended content with
  | nil => exact ⟨[], [], rfl, by cases content <;> rfl⟩
  | cons symbol rest ih =>
      rw [List.foldl_cons]
      by_cases comma : symbol = .glyph ',' ∧ depth = 0
      · obtain ⟨rfl, rfl⟩ := comma
        obtain ⟨first, later, parts, counted⟩ := ih 0 (ended + (if content then 1 else 0)) false
        refine ⟨[], first :: later, ?_, ?_⟩
        · rw [← parts]
          exact argumentPartsFrom_append (rfl : 0 + netDepth [] = 0) rest
        · have nothing : hasContent [] = false := rfl
          rw [read_comma, counted, List.countP_cons, nothing, Bool.or_false, Bool.false_or]
          omega
      · obtain ⟨first, later, parts, wholeParts⟩ := argumentPartsFrom_cons comma rest
        obtain ⟨_, _, sameParts, counted⟩ := ih (depth + netDepth [symbol]) ended (content || !symbol.isBlank)
        obtain ⟨rfl, rfl⟩ := List.cons.inj (parts.symm.trans sameParts)
        refine ⟨_, _, wholeParts, ?_⟩
        rw [read_of_not_comma comma, counted, Bool.or_assoc]
        rfl

theorem countArguments_eq (code : Text) : countArguments code = (argumentParts code).countP hasContent := by
  obtain ⟨first, later, parts, counted⟩ := ended_foldl_read code 0 0 false
  rw [countArguments, counted, argumentParts, parts, List.countP_cons, Bool.false_or]
  omega

/-- The arguments of a list are the parts with content between the commas of depth zero.  What stands before such a
comma and what stands after it are therefore counted by themselves. -/
theorem arguments_are_parts_with_content (code : Text) :
    countArguments code = (argumentParts code).countP hasContent ∧
      (netDepth code = 0 → ∀ rest, countArguments (code ++ .glyph ',' :: rest) =
        countArguments code + countArguments rest) := by
  refine ⟨countArguments_eq code, fun outside rest => ?_⟩
  have divided := argumentPartsFrom_append (by rw [outside]; rfl : 0 + netDepth code = 0) rest
  rw [countArguments_eq, argumentParts, divided, List.countP_append, countArguments_eq, countArguments_eq]
  rfl

theorem crossed_brackets_counted_apart :
    let code : Text := "a), (b, ], ["
    netDepth code = 0 ∧ argumentParts code = ["a), (b", " ], ["] ∧ countArguments code = 2 ∧
      countArguments (code ++ .glyph ',' :: " , *c") = 3 := by
  intro code
  have outside : netDepth code = 0 := by decide
  have parts : argumentParts code = ["a), (b", " ], ["] := by decide
  obtain ⟨counted, divided⟩ := arguments_are_parts_with_content code
  have two : countArguments code = 2 := by
    rw [counted, parts]
    decide
  refine ⟨outside, parts, two, ?_⟩
  rw [divided outside, two]
  decide

end AccessorLint.Source
