import Mathlib
import AccessorLint.Source.Extent
import AccessorLint.Proofs.Header
set_option autoImplicit false

/-!
How the end of a head and the end of a block are found.

Parameters in parentheses end where the parentheses balance, or at the end of the code.  Reading a token takes at least
one symbol, so the fuel of the search for the end of a block does not matter, and the search can be told by one
equation.  It does not look behind an opening parenthesis.
-/

namespace AccessorLint.Source

open AccessorLint.Symbol (newline)

/-! ### Parentheses -/

/-- The search for a closing bracket ends in a text, whatever follows, or goes on after it at some depth. -/
theorem closingSpan_append (opening closing : Symbol) (depth : Int) (text : Text) :
    (∃ front back, text = front ++ closing :: back ∧
      ∀ rest, closingSpan opening closing depth (text ++ rest) = front.length) ∨
      ∃ inner, ∀ rest, closingSpan opening closing depth (text ++ rest) =
        text.length + closingSpan opening closing inner rest := by
  induction text generalizing depth with
  | nil =>
      right
      refine ⟨depth, fun rest => ?_⟩
      rw [List.nil_append, List.length_nil, Nat.zero_add]
  | cons symbol others ih =>
      have later : ∀ next : Int, (∀ rest, closingSpan opening closing depth (symbol :: (others ++ rest)) =
          1 + closingSpan opening closing next (others ++ rest)) →
          (∃ front back, symbol :: others = front ++ closing :: back ∧
            ∀ rest, closingSpan opening closing depth (symbol :: (others ++ rest)) = front.length) ∨
          ∃ inner, ∀ rest, closingSpan opening closing depth (symbol :: (others ++ rest)) =
            (symbol :: others).length + closingSpan opening closing inner rest := by
        intro next step
        rcases ih next with ⟨front, back, othersEq, same⟩ | ⟨inner, same⟩
        · left
          refine ⟨symbol :: front, back, by rw [othersEq]; rfl, fun rest => ?_⟩
          rw [step, same, List.length_cons, Nat.add_comm]
        · right
          refine ⟨inner, fun rest => ?_⟩
          rw [step, same, List.length_cons]
          omega
      by_cases opens : symbol = opening
      · exact later (depth + 1) fun rest => by rw [closingSpan, if_pos opens]
      by_cases closes : symbol = closing
      · by_cases balanced : depth - 1 = 0
        · left
          refine ⟨[], others, by rw [closes]; rfl, fun rest => ?_⟩
          rw [List.cons_append, closingSpan, if_neg opens, if_pos closes, if_pos balanced]
          rfl
        · exact later (depth - 1) fun rest => by
            rw [closingSpan, if_neg opens, if_pos closes, if_neg balanced]
      · exact later depth fun rest => by rw [closingSpan, if_neg opens, if_neg closes]

/-- A text without brackets does not change the depth. -/
theorem closingSpan_skip {opening closing : Symbol} (depth : Int) {text : Text} (noOpening : opening ∉ text)
    (noClosing : closing ∉ text) (rest : Text) :
    closingSpan opening closing depth (text ++ rest) = text.length + closingSpan opening closing depth rest := by
  induction text with
  | nil => rw [List.nil_append, List.length_nil, Nat.zero_add]
  | cons symbol others ih =>
      rw [List.mem_cons, not_or] at noOpening noClosing
      rw [List.cons_append, closingSpan, if_neg (Ne.symm noOpening.1), if_neg (Ne.symm noClosing.1),
        ih noOpening.2 noClosing.2, List.length_cons]
      omega

theorem closingSpan_le (opening closing : Symbol) (depth : Int) (text : Text) :
    closingSpan opening closing depth text ≤ text.length := by
  induction text generalizing depth with
  | nil => exact Nat.le_refl _
  | cons symbol others ih =>
      have increased := ih (depth + 1)
      have decreased := ih (depth - 1)
      have same := ih depth
      rw [closingSpan, List.length_cons]
      split_ifs <;> omega

/-- Whether a symbol is content of an argument and nothing else. -/
def isContent (symbol : Symbol) : Bool :=
  symbol != .glyph ',' && !symbol.isOneOf "([\x7b" && !symbol.isOneOf ")]\x7d" && !symbol.isBlank

theorem isContent_of_isWord {symbol : Symbol} (word : symbol.isWord = true) : isContent symbol = true := by
  have differs : ∀ {char : Char}, (Symbol.glyph char).isWord = false → symbol ≠ .glyph char :=
    fun outside => Symbol.ne_of_property word outside
  simp only [isContent, Symbol.isOneOf, Bool.and_eq_true, bne_iff_ne, Bool.not_eq_true', List.any_eq_false, beq_iff_eq,
    String.reduceToList, List.forall_mem_cons]
  refine ⟨⟨⟨differs (by decide), differs (by decide), differs (by decide), differs (by decide), ?_⟩,
    differs (by decide), differs (by decide), differs (by decide), ?_⟩, Symbol.isBlank_of_isWord word⟩ <;> simp

theorem read_content (count : ArgumentCount) {symbol : Symbol} (content : isContent symbol = true) :
    count.read symbol = { count with hasContent := true } := by
  simp only [isContent, Bool.and_eq_true, bne_iff_ne, Bool.not_eq_true'] at content
  obtain ⟨⟨⟨noComma, noOpening⟩, noClosing⟩, visible⟩ := content
  simp only [ArgumentCount.read, noComma, decide_false, Bool.false_and, Bool.false_eq_true, if_false, noOpening,
    noClosing, visible, Bool.not_false, Bool.or_true]

theorem foldl_read_content (count : ArgumentCount) {text : Text} (nonempty : text ≠ [])
    (content : ∀ symbol ∈ text, isContent symbol = true) :
    text.foldl ArgumentCount.read count = { count with hasContent := true } := by
  induction text generalizing count with
  | nil => exact absurd rfl nonempty
  | cons symbol others ih =>
      rw [List.foldl_cons, read_content count (content symbol (List.mem_cons_self ..))]
      by_cases last : others = []
      · rw [last]
        rfl
      · exact ih _ last fun other member => content other (List.mem_cons_of_mem _ member)

theorem Header.parametersAt_le (text : Text) : (parametersAt text 0).2 ≤ text.length := by
  have gaps := (List.takeWhile_prefix (l := text) isGap).length_le
  simp only [parametersAt, List.drop_zero, Nat.zero_add]
  split_ifs with opens bare
  · rw [List.length_take, List.length_drop]
    omega
  · exact Nat.zero_le _
  · have line := (List.takeWhile_prefix (l := text.drop (text.takeWhile isGap).length)
      fun symbol => !symbol.isOneOf "\n;").length_le
    rw [List.length_drop] at line
    change (text.takeWhile isGap).length + _ ≤ _
    omega

theorem Header.headerEnd_bounds {text : Text} {header : Header} (found : read? text = some header) :
    0 < header.headerEnd ∧ header.headerEnd ≤ text.length := by
  obtain ⟨lead, name, rest, rfl, -, -, -, headerEq, -⟩ := read?_sound found
  have within := parametersAt_le rest
  rw [headerEq]
  simp only [written, List.length_append]
  change _ ∧ _ ≤ 3 + _
  omega

/-! ### Progress -/

theorem tokenLength_pos {text : Text} (nonempty : text ≠ []) : 0 < tokenLength text := by
  obtain ⟨first, rest, rfl⟩ := List.exists_cons_of_ne_nil nonempty
  unfold tokenLength
  dsimp only
  split_ifs <;> omega

theorem tokenLength_le (text : Text) : tokenLength text ≤ text.length := by
  cases text with
  | nil => exact Nat.le_refl _
  | cons first rest =>
      have runs : ∀ property : Symbol → Bool, (rest.takeWhile property).length ≤ rest.length :=
        fun property => (List.takeWhile_prefix property).length_le
      unfold tokenLength
      rw [List.length_cons]
      dsimp only
      split_ifs with start mark decimal dots double
      · have within : (rest.takeWhile Symbol.isNamePart).length < rest.length := by
          by_contra beyond
          rw [List.drop_of_length_le (Nat.le_of_not_lt beyond)] at mark
          cases mark
        omega
      · have part := runs Symbol.isNamePart
        omega
      · have digits := runs fun symbol => symbol.isWord || symbol = .glyph '.'
        omega
      · have size := (List.isPrefixOf_iff_prefix.mp (Bool.and_eq_true_iff.mp dots).2).length_le
        change 2 ≤ rest.length at size
        omega
      · cases rest with
        | nil =>
            rw [Bool.and_eq_true_iff] at double
            cases of_decide_eq_true double.2
        | cons second others =>
            rw [List.length_cons]
            omega
      · omega

namespace Block

/-- How far a reading goes. -/
def advance : Reading → Nat
  | .closed length => length
  | .goesOn _ length => length

theorem readKeyword_bounds (block : Block) {word text : Text} (nonempty : word ≠ [])
    (within : word.length ≤ text.length) :
    0 < advance (block.readKeyword word text) ∧ advance (block.readKeyword word text) ≤ text.length := by
  have bounds : 0 < word.length ∧ word.length ≤ text.length := ⟨List.length_pos_iff.mpr nonempty, within⟩
  unfold readKeyword
  split_ifs with isEnd isDef opens conditional starts isDo
  · split <;> exact bounds
  · split
    · exact bounds
    · rename_i header found
      exact Header.headerEnd_bounds found
  all_goals exact bounds

/-- Reading a token takes at least one symbol, and no more than there are. -/
theorem read_bounds (block : Block) (behind : Text) {text : Text} (nonempty : text ≠ []) :
    0 < advance (block.read behind text) ∧ advance (block.read behind text) ≤ text.length := by
  have token : (text.take (tokenLength text)).length = tokenLength text :=
    List.length_take_of_le (tokenLength_le text)
  have bounds : 0 < (text.take (tokenLength text)).length ∧ (text.take (tokenLength text)).length ≤ text.length := by
    rw [token]
    exact ⟨tokenLength_pos nonempty, tokenLength_le text⟩
  unfold read
  dsimp only
  split_ifs with ends noWord noPlace
  · exact bounds
  · exact bounds
  · exact bounds
  · exact readKeyword_bounds block (List.length_pos_iff.mp bounds.1) bounds.2

theorem read_progress {block next : Block} {behind text : Text} {length : Nat} (nonempty : text ≠ [])
    (goesOn : block.read behind text = .goesOn next length) : 0 < length := by
  have bounds := block.read_bounds behind nonempty
  rw [goesOn] at bounds
  exact bounds.1

/-! ### The search without fuel -/

theorem span_enough (block : Block) (behind ahead : Text) {left right : Nat} (leftEnough : ahead.length ≤ left)
    (rightEnough : ahead.length ≤ right) : span left block behind ahead = span right block behind ahead := by
  induction left generalizing block behind ahead right with
  | zero =>
      have ended : ahead = [] := List.length_eq_zero_iff.mp (Nat.le_zero.mp leftEnough)
      subst ended
      cases right with
      | zero => rfl
      | succ right => rfl
  | succ left ih =>
      by_cases ended : ahead = []
      · subst ended
        cases right with
        | zero => rfl
        | succ right => rfl
      · have positive := List.length_pos_iff.mpr ended
        obtain ⟨fewer, rfl⟩ : ∃ fewer, right = fewer + 1 := ⟨right - 1, by omega⟩
        unfold span
        dsimp only
        split
        · rfl
        · rename_i more
          generalize textEq : ahead.drop (ahead.takeWhile isFiller).length = text at more ⊢
          have size := congrArg List.length textEq
          rw [List.length_drop] at size
          cases reading : block.read ((ahead.takeWhile isFiller).reverse ++ behind) text with
          | closed length => rfl
          | goesOn next length =>
              have progress := read_progress (by simpa using more) reading
              have shorter : (text.drop length).length ≤ ahead.length - 1 := by
                rw [List.length_drop]
                omega
              dsimp only
              rw [ih next _ (text.drop length) (show _ ≤ left by omega) (show _ ≤ fewer by omega)]

/-- The number of symbols ahead up to the end of the block. -/
def extent (block : Block) (behind ahead : Text) : Nat :=
  span ahead.length block behind ahead

theorem extent_eq (block : Block) (behind filler text : Text) (fills : ∀ symbol ∈ filler, isFiller symbol = true)
    (stops : ∀ next ∈ text.head?, isFiller next = false) :
    block.extent behind (filler ++ text) =
      if text = [] then filler.length
      else
        match block.read (filler.reverse ++ behind) text with
        | .closed length => filler.length + length
        | .goesOn next length =>
            filler.length + length +
              next.extent ((text.take length).reverse ++ (filler.reverse ++ behind)) (text.drop length) := by
  have filled : (filler ++ text).takeWhile isFiller = filler := takeWhile_run fills stops
  have enough : block.extent behind (filler ++ text) = span ((filler ++ text).length + 1) block behind (filler ++ text) :=
    span_enough block behind (filler ++ text) (Nat.le_refl _) (Nat.le_succ _)
  rw [enough]
  unfold span
  dsimp only
  rw [filled, List.drop_left]
  by_cases ended : text = []
  · subst ended
    rw [if_pos rfl, List.append_nil]
    rfl
  · rw [if_neg (by simpa using ended), if_neg ended]
    cases reading : block.read (filler.reverse ++ behind) text with
    | closed length => rfl
    | goesOn next length =>
        have progress := read_progress ended reading
        dsimp only
        rw [List.append_assoc, extent]
        congr 1
        apply span_enough
        · rw [List.length_drop, List.length_append]
          omega
        · exact Nat.le_refl _

theorem extent_le (block : Block) (behind ahead : Text) : block.extent behind ahead ≤ ahead.length := by
  induction size : ahead.length using Nat.strong_induction_on generalizing block behind ahead with
  | _ length ih =>
      obtain ⟨filler, text, rfl, -, fills, stops⟩ := exists_run isFiller ahead
      rw [extent_eq block behind filler text fills stops, ← size, List.length_append]
      by_cases ended : text = []
      · rw [if_pos ended]
        omega
      · rw [if_neg ended]
        have bounds := block.read_bounds (filler.reverse ++ behind) ended
        cases reading : block.read (filler.reverse ++ behind) text with
        | closed length =>
            rw [reading] at bounds
            have within : length ≤ text.length := bounds.2
            dsimp only
            omega
        | goesOn next length =>
            rw [reading] at bounds
            have positive : 0 < length := bounds.1
            have within : length ≤ text.length := bounds.2
            have rest := ih (text.drop length).length (by rw [List.length_drop, ← size, List.length_append]; omega) next
              ((text.take length).reverse ++ (filler.reverse ++ behind)) (text.drop length) rfl
            rw [List.length_drop] at rest
            dsimp only
            omega

/-! ### Behind a parenthesis -/

theorem isKeywordPlace_opened {near : Text} (opened : .glyph '(' ∈ near) (far after : Text) :
    isKeywordPlace (near ++ far) after = isKeywordPlace near after := by
  match near with
  | [] => cases opened
  | [only] =>
      have isOpening : only = .glyph '(' := (List.mem_singleton.mp opened).symm
      subst isOpening
      rfl
  | first :: second :: others => rfl

theorem read_opened {near : Text} (opened : .glyph '(' ∈ near) (block : Block) (far text : Text) :
    block.read (near ++ far) text = block.read near text := by
  simp only [read, isKeywordPlace_opened opened]

theorem extent_opened {near : Text} (opened : .glyph '(' ∈ near) (block : Block) (far ahead : Text) :
    block.extent (near ++ far) ahead = block.extent near ahead := by
  induction size : ahead.length using Nat.strong_induction_on generalizing block near ahead with
  | _ length ih =>
      obtain ⟨filler, text, rfl, -, fills, stops⟩ := exists_run isFiller ahead
      rw [extent_eq block (near ++ far) filler text fills stops, extent_eq block near filler text fills stops,
        ← List.append_assoc, read_opened (List.mem_append_right _ opened)]
      by_cases ended : text = []
      · rw [if_pos ended, if_pos ended]
      · rw [if_neg ended, if_neg ended]
        cases reading : block.read (filler.reverse ++ near) text with
        | closed length => rfl
        | goesOn next length =>
            have progress := read_progress ended reading
            have shorter : (text.drop length).length < (filler ++ text).length := by
              have positive := List.length_pos_iff.mpr ended
              rw [List.length_drop, List.length_append]
              omega
            dsimp only
            rw [← List.append_assoc, ih _ (size ▸ shorter)
              (List.mem_append_right _ (List.mem_append_right _ opened)) next (text.drop length) rfl]

end Block

end AccessorLint.Source
