import Mathlib
import AccessorLint.Proofs.Tokens
set_option autoImplicit false

/-!
The search for the end of a block, step by step.

A step passes a symbol between two tokens, or what is read at a token.  Where the search ends is the same before and
after a step, so it can be told from any place that the search reaches.
-/

namespace AccessorLint.Source

open AccessorLint.Symbol (newline)

/-- A place in the search for the end of a block. -/
structure Search where
  block : Block
  behind : Text
  ahead : Text

namespace Search

/-- One step of the search that does not end it. -/
inductive Step : Search → Search → Prop where
  | filler {block : Block} {behind rest : Text} {symbol : Symbol} (fills : isFiller symbol = true) :
      Step ⟨block, behind, symbol :: rest⟩ ⟨block, symbol :: behind, rest⟩
  | token {block next : Block} {behind text : Text} {length : Nat} (nonempty : text ≠ [])
      (visible : ∀ first ∈ text.head?, isFiller first = false) (reading : block.read behind text = .goesOn next length) :
      Step ⟨block, behind, text⟩ ⟨next, (text.take length).reverse ++ behind, text.drop length⟩

/-- Whether the search gets from one place to another. -/
def Reaches : Search → Search → Prop :=
  Relation.ReflTransGen Step

/-- Whether the next token is the `end` that is sought. -/
structure Closes (search : Search) : Prop where
  nonempty : search.ahead ≠ []
  visible : ∀ first ∈ search.ahead.head?, isFiller first = false
  reading : ∃ length, search.block.read search.behind search.ahead = .closed length

/-- The offset at which the search ends, counted like the symbols behind. -/
def finish (search : Search) : Nat :=
  search.behind.length + search.block.extent search.behind search.ahead

variable {first second third : Search}

/-! ### Steps -/

theorem Step.behind_lt (step : Step first second) : first.behind.length < second.behind.length := by
  cases step with
  | filler fills => exact Nat.lt_succ_self _
  | @token block next behind text length nonempty visible reading =>
      have bounds := block.read_bounds behind nonempty
      rw [reading] at bounds
      have positive : 0 < length := bounds.1
      have within : length ≤ text.length := bounds.2
      change behind.length < ((text.take length).reverse ++ behind).length
      rw [List.length_append, List.length_reverse, List.length_take_of_le within]
      omega

theorem Step.whole (step : Step first second) :
    second.behind.reverse ++ second.ahead = first.behind.reverse ++ first.ahead := by
  cases step with
  | filler fills => simp
  | @token block next behind text length nonempty visible reading =>
      change ((text.take length).reverse ++ behind).reverse ++ text.drop length = behind.reverse ++ text
      rw [List.reverse_append, List.reverse_reverse, List.append_assoc, List.take_append_drop]

theorem step_unique (left : Step first second) (right : Step first third) : second = third := by
  cases left with
  | filler fills =>
      cases right with
      | filler also => rfl
      | token nonempty visible reading =>
          rw [visible _ rfl] at fills
          cases fills
  | token nonempty visible reading =>
      cases right with
      | filler fills =>
          rw [visible _ rfl] at fills
          cases fills
      | token _ _ also =>
          rw [reading] at also
          cases also
          rfl

theorem Closes.not_step (closes : first.Closes) : ¬Step first second := by
  intro step
  obtain ⟨length, closed⟩ := closes.reading
  cases step with
  | filler fills =>
      rw [closes.visible _ rfl] at fills
      cases fills
  | token nonempty visible reading =>
      rw [reading] at closed
      cases closed

theorem Closes.inner (closes : first.Closes) : first.block.inner = 0 := by
  obtain ⟨length, closed⟩ := closes.reading
  obtain ⟨token, rest, aheadEq, size, -⟩ := exists_token closes.nonempty
  rw [aheadEq] at size closed
  exact (Block.read_closed size closed).2.2.1

/-! ### Where the search ends -/

theorem extent_filler (block : Block) (behind rest : Text) {symbol : Symbol} (fills : isFiller symbol = true) :
    block.extent behind (symbol :: rest) = 1 + block.extent (symbol :: behind) rest := by
  obtain ⟨filler, text, rfl, -, allFill, stops⟩ := exists_run isFiller rest
  have longer : ∀ other ∈ symbol :: filler, isFiller other = true := List.forall_mem_cons.mpr ⟨fills, allFill⟩
  have regrouped : (symbol :: filler).reverse ++ behind = filler.reverse ++ (symbol :: behind) := by simp
  rw [← List.cons_append, Block.extent_eq block behind (symbol :: filler) text longer stops,
    Block.extent_eq block (symbol :: behind) filler text allFill stops, regrouped, List.length_cons]
  by_cases ended : text = []
  · rw [if_pos ended, if_pos ended]
    omega
  · rw [if_neg ended, if_neg ended]
    cases block.read (filler.reverse ++ symbol :: behind) text with
    | closed length =>
        dsimp only
        omega
    | goesOn next length =>
        dsimp only
        omega

theorem extent_token {block : Block} {behind text : Text} (nonempty : text ≠ [])
    (visible : ∀ first ∈ text.head?, isFiller first = false) :
    block.extent behind text =
      match block.read behind text with
      | .closed length => length
      | .goesOn next length => length + next.extent ((text.take length).reverse ++ behind) (text.drop length) := by
  have single := Block.extent_eq block behind [] text (by simp) visible
  rw [List.nil_append, if_neg nonempty] at single
  rw [single]
  cases reading : block.read ([].reverse ++ behind) text with
  | closed length =>
      rw [List.reverse_nil, List.nil_append] at reading
      rw [reading]
      simp
  | goesOn next length =>
      rw [List.reverse_nil, List.nil_append] at reading
      rw [reading]
      simp

/-- A step does not change where the search ends. -/
theorem Step.finish (step : Step first second) : second.finish = first.finish := by
  cases step with
  | @filler block behind rest symbol fills =>
      have one := extent_filler block behind rest fills
      change (symbol :: behind).length + block.extent (symbol :: behind) rest =
        behind.length + block.extent behind (symbol :: rest)
      rw [one, List.length_cons]
      omega
  | @token block next behind text length nonempty visible reading =>
      have bounds := block.read_bounds behind nonempty
      rw [reading] at bounds
      have within : length ≤ text.length := bounds.2
      have read : block.extent behind text =
          length + next.extent ((text.take length).reverse ++ behind) (text.drop length) := by
        rw [extent_token nonempty visible, reading]
      change ((text.take length).reverse ++ behind).length +
        next.extent ((text.take length).reverse ++ behind) (text.drop length) = behind.length + block.extent behind text
      rw [read, List.length_append, List.length_reverse, List.length_take_of_le within]
      omega

theorem Closes.finish (closes : first.Closes) : first.finish = first.behind.length + 3 := by
  obtain ⟨length, closed⟩ := closes.reading
  obtain ⟨token, rest, aheadEq, size, -⟩ := exists_token closes.nonempty
  have three : length = 3 := by
    rw [aheadEq] at size closed
    exact (Block.read_closed size closed).2.1
  unfold Search.finish
  rw [extent_token closes.nonempty closes.visible, closed, three]

namespace Reaches

theorem refl (search : Search) : search.Reaches search :=
  Relation.ReflTransGen.refl

theorem trans (before : first.Reaches second) (after : second.Reaches third) : first.Reaches third :=
  Relation.ReflTransGen.trans before after

theorem head (step : Step first second) (later : second.Reaches third) : first.Reaches third :=
  Relation.ReflTransGen.head step later

theorem fillers (block : Block) (behind rest : Text) {filler : Text}
    (fills : ∀ symbol ∈ filler, isFiller symbol = true) :
    Reaches ⟨block, behind, filler ++ rest⟩ ⟨block, filler.reverse ++ behind, rest⟩ := by
  induction filler generalizing behind with
  | nil => exact .refl _
  | cons symbol others ih =>
      have later := ih (symbol :: behind) fun other member => fills other (List.mem_cons_of_mem _ member)
      rw [List.reverse_cons, List.append_assoc]
      exact .head (.filler (fills symbol List.mem_cons_self)) later

/-- A statement starts on a new line, and no loop awaits its `do` there. -/
theorem line (block : Block) (behind below : Text) :
    Reaches ⟨block, behind, newline :: below⟩ ⟨⟨block.inner, true, false⟩, newline :: behind, below⟩ := by
  have visible : ∀ first ∈ (newline :: below).head?, isFiller first = false := by
    intro first member
    cases member
    decide
  exact .head (.token (List.cons_ne_nil _ _) visible (block.read_newline behind below)) (.refl _)

theorem finish (reaches : first.Reaches second) : second.finish = first.finish := by
  induction reaches with
  | refl => rfl
  | tail _ step ih => exact step.finish.trans ih

theorem whole (reaches : first.Reaches second) :
    second.behind.reverse ++ second.ahead = first.behind.reverse ++ first.ahead := by
  induction reaches with
  | refl => rfl
  | tail _ step ih => exact step.whole.trans ih

theorem behind_le (reaches : first.Reaches second) : first.behind.length ≤ second.behind.length := by
  induction reaches with
  | refl => exact Nat.le_refl _
  | tail _ step ih => exact Nat.le_trans ih (Nat.le_of_lt step.behind_lt)

theorem total (left : first.Reaches second) (right : first.Reaches third) :
    second.Reaches third ∨ third.Reaches second := by
  have unique : Relator.RightUnique Step := fun _ _ _ one other => step_unique one other
  exact Relation.ReflTransGen.total_of_right_unique unique left right

/-- A search that finds the `end` finds it from every place that it reaches. -/
theorem closes_later (reaches : first.Reaches second) (ends : first.Reaches third) (closes : third.Closes) :
    second.Reaches third := by
  rcases total reaches ends with later | earlier
  · exact later
  · -- no step leads on from the `end`
    rcases Relation.ReflTransGen.cases_head earlier with same | ⟨next, step, -⟩
    · rw [same]
      exact .refl _
    · exact absurd step closes.not_step

theorem eq_or_step (reaches : first.Reaches second) :
    first = second ∨ ∃ next, Step first next ∧ first.behind.length < next.behind.length ∧ next.Reaches second := by
  rcases Relation.ReflTransGen.cases_head reaches with same | ⟨next, step, later⟩
  · exact Or.inl same
  · exact Or.inr ⟨next, step, step.behind_lt, later⟩

theorem place_unique (left : first.Reaches second) (right : first.Reaches third)
    (same : second.behind.length = third.behind.length) : second = third := by
  rcases total left right with later | earlier
  · rcases later.eq_or_step with equal | ⟨next, -, passes, onward⟩
    · exact equal
    · have further := onward.behind_le
      omega
  · rcases earlier.eq_or_step with equal | ⟨next, -, passes, onward⟩
    · exact equal.symm
    · have further := onward.behind_le
      omega

/-- The search does not step over a place that it reaches. -/
theorem not_stepped_over {next : Search} (reaches : first.Reaches third) (before : first.Reaches second)
    (step : Step second next) (earlier : second.behind.length < third.behind.length) :
    next.behind.length ≤ third.behind.length := by
  rcases total before reaches with later | back
  · rcases later.eq_or_step with equal | ⟨other, also, -, onward⟩
    · rw [equal] at earlier
      exact absurd earlier (Nat.lt_irrefl _)
    · rw [step_unique step also]
      exact onward.behind_le
  · have further := back.behind_le
    omega

/-- On its way the search comes to an offset or steps over it. -/
theorem exists_place {offset : Nat} (reaches : first.Reaches second) (after : first.behind.length ≤ offset)
    (before : offset ≤ second.behind.length) :
    (∃ place, first.Reaches place ∧ place.behind.length = offset) ∨
      ∃ place next, first.Reaches place ∧ Step place next ∧ place.behind.length < offset ∧ offset < next.behind.length := by
  induction reaches using Relation.ReflTransGen.head_induction_on with
  | refl => exact Or.inl ⟨second, .refl _, by omega⟩
  | @head start next step later ih =>
      by_cases here : start.behind.length = offset
      · exact Or.inl ⟨start, .refl _, here⟩
      · by_cases beyond : offset < next.behind.length
        · exact Or.inr ⟨start, next, .refl _, step, by omega, beyond⟩
        · rcases ih (by omega) with ⟨place, onward, same⟩ | ⟨place, other, onward, stepped⟩
          · exact Or.inl ⟨place, .head step onward, same⟩
          · exact Or.inr ⟨place, other, .head step onward, stepped⟩

end Reaches

/-- A search finds the `end` that it seeks, or comes to the end of the code. -/
theorem exists_closes (search : Search) :
    (∃ last, search.Reaches last ∧ last.Closes) ∨ search.finish = search.behind.length + search.ahead.length := by
  induction size : search.ahead.length using Nat.strong_induction_on generalizing search with
  | _ length ih =>
      obtain ⟨block, behind, ahead⟩ := search
      have goesOn : ∀ next, Step ⟨block, behind, ahead⟩ next → (∃ last, Reaches ⟨block, behind, ahead⟩ last ∧ last.Closes) ∨
          finish ⟨block, behind, ahead⟩ = behind.length + length := by
        intro next step
        have passes := step.behind_lt
        have whole := congrArg List.length step.whole
        simp only [List.length_append, List.length_reverse] at whole
        dsimp only at size passes whole
        rcases ih next.ahead.length (by omega) next rfl with ⟨last, reaches, closes⟩ | ends
        · exact Or.inl ⟨last, .head step reaches, closes⟩
        · right
          rw [← step.finish, ends]
          omega
      cases ahead with
      | nil =>
          right
          rw [← size]
          rfl
      | cons symbol rest =>
          by_cases fills : isFiller symbol = true
          · exact goesOn _ (.filler fills)
          · have visible : ∀ first ∈ (symbol :: rest).head?, isFiller first = false := by
              intro first member
              cases member
              exact Bool.eq_false_iff.mpr fills
            cases reading : block.read behind (symbol :: rest) with
            | closed length => exact Or.inl ⟨_, .refl _, List.cons_ne_nil _ _, visible, length, reading⟩
            | goesOn next length => exact goesOn _ (.token (List.cons_ne_nil _ _) visible reading)

end Search

end AccessorLint.Source
