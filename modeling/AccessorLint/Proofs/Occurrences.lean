import Mathlib
import AccessorLint.Naming.Patterns
set_option autoImplicit false

/-!
Where the patterns that come with the linter occur.

A search for a text succeeds where the text stands, and a search for blanks after some of the blanks there.  What has to
match next is searched for from the place after them, so the lemmas say what is left to be found there.
-/

namespace AccessorLint

theorem Symbol.code_injective {first second : Symbol} (same : first.code = second.code) : first = second := by
  have noStray : ∀ (char : Char) (low : Fin 128), char.toNat ≠ 0xDC80 + low.val := by
    intro char low equal
    have small := low.isLt
    rcases char.valid with below | above
    · change char.toNat < 0xd800 at below
      omega
    · have beyond : 0xdfff < char.toNat := above.1
      omega
  cases first with
  | glyph char =>
      cases second with
      | glyph other => exact congrArg Symbol.glyph (Char.toNat_inj.mp same)
      | stray low => exact absurd same (noStray char low)
  | stray low =>
      cases second with
      | glyph other => exact absurd same.symm (noStray other low)
      | stray other => exact congrArg Symbol.stray (Fin.ext (Nat.add_left_cancel same))

namespace Pattern

/-- The place after a text that stands at a place. -/
def Place.past (place : Place) (text rest : Text) : Place :=
  ⟨place.offset + text.length, text.getLast?.or place.previous, rest⟩

theorem Place.past_nil (place : Place) : place.past [] place.rest = place := rfl

theorem Place.past_cons (place : Place) (symbol : Symbol) (text rest : Text) :
    place.past (symbol :: text) rest =
      (⟨place.offset + 1, some symbol, text ++ rest⟩ : Place).past text rest := by
  have offset : place.offset + (text.length + 1) = place.offset + 1 + text.length := by omega
  have previous : (symbol :: text).getLast?.or place.previous = text.getLast?.or (some symbol) := by
    rw [List.getLast?_cons]
    cases text.getLast? <;> rfl
  rw [past, past, List.length_cons, offset, previous]

theorem accepts_single (symbol other : Symbol) :
    (Class.set [.single symbol] true).accepts false other = decide (other = symbol) := by
  have member : (Member.single symbol).accepts false other = decide (other = symbol) := by
    rw [Bool.eq_iff_iff, decide_eq_true_iff]
    simp only [Member.accepts, Member.single, Bool.false_eq_true, if_false, List.any_cons, List.any_nil, Bool.or_false,
      Bool.and_eq_true, decide_eq_true_eq]
    constructor
    · intro between
      exact Symbol.code_injective (Nat.le_antisymm between.2 between.1)
    · rintro rfl
      exact ⟨Nat.le_refl _, Nat.le_refl _⟩
  rw [Class.accepts, List.any_cons, List.any_nil, Bool.or_false, member, beq_true]

variable {next : Search} {place : Place}

theorem search_one {ignoresCase : Bool} {symbols : Class} :
    ((Expr.one symbols).search ignoresCase next place).isSome ↔
      ∃ symbol rest, place.rest = symbol :: rest ∧ symbols.accepts ignoresCase symbol = true ∧
        (next ⟨place.offset + 1, some symbol, rest⟩).isSome := by
  obtain ⟨offset, previous, ahead⟩ := place
  rw [Expr.search]
  cases ahead with
  | nil => simp
  | cons symbol rest =>
      constructor
      · intro found
        by_cases accepted : symbols.accepts ignoresCase symbol = true
        · simp only [accepted, if_true] at found
          exact ⟨symbol, rest, rfl, accepted, found⟩
        · simp only [accepted, if_false, Bool.false_eq_true] at found
          cases found
      · rintro ⟨first, others, split, accepted, found⟩
        obtain ⟨rfl, rfl⟩ := List.cons.inj split
        simp only [accepted, if_true]
        exact found

theorem search_anchor {ignoresCase : Bool} {condition : Anchor} :
    ((Expr.anchor condition).search ignoresCase next place).isSome ↔
      condition.holdsAt place = true ∧ (next place).isSome := by
  simp only [Expr.search]
  by_cases holds : condition.holdsAt place = true
  · simp [holds]
  · simp [holds]

theorem search_literal {text : Text} :
    ((Expr.literal text).search false next place).isSome ↔
      ∃ rest, place.rest = text ++ rest ∧ (next (place.past text rest)).isSome := by
  induction text generalizing place with
  | nil =>
      rw [Expr.literal, Expr.search]
      constructor
      · intro found
        exact ⟨place.rest, rfl, found⟩
      · rintro ⟨rest, same, found⟩
        obtain rfl : place.rest = rest := same
        exact found
  | cons symbol text ih =>
      rw [Expr.literal, Expr.search, search_one]
      constructor
      · rintro ⟨first, others, ahead, accepted, found⟩
        obtain ⟨rest, othersEq, foundNext⟩ := ih.mp found
        obtain rfl : others = text ++ rest := othersEq
        rw [accepts_single, decide_eq_true_eq] at accepted
        refine ⟨rest, by rw [ahead, accepted, List.cons_append], ?_⟩
        rwa [Place.past_cons, ← accepted]
      · rintro ⟨rest, ahead, found⟩
        rw [Place.past_cons] at found
        refine ⟨symbol, text ++ rest, ahead, ?_, ih.mpr ⟨rest, rfl, found⟩⟩
        rw [accepts_single, decide_eq_true_eq]

theorem greedyTurns_succ {item : Search → Search} {count : Nat} :
    (greedyTurns item next (count + 1) place).isSome ↔
      (item (fun moved => if place.offset < moved.offset then greedyTurns item next count moved else none)
        place).isSome ∨ (next place).isSome := by
  rw [greedyTurns]
  split
  · rename_i found turned
    simp [turned]
  · rename_i stuck
    simp [stuck]

/-- A search for blanks.  It takes as many turns as it can, but goes back if the rest asks for it. -/
theorem search_blanks :
    (Expr.blanks.search false next place).isSome ↔
      ∃ run rest, place.rest = run ++ rest ∧ (∀ symbol ∈ run, symbol.isBlank = true) ∧
        (next (place.past run rest)).isSome := by
  have accepts : ∀ symbol, (Class.set [.kind .blank true] true).accepts false symbol = symbol.isBlank := by
    intro symbol
    simp [Class.accepts, Member.accepts, Kind.holds]
  have turns : ∀ (count : Nat) (place : Place), place.rest.length ≤ count →
      ((greedyTurns (Expr.search false (.one (.set [.kind .blank true] true))) next count place).isSome ↔
        ∃ run rest, place.rest = run ++ rest ∧ (∀ symbol ∈ run, symbol.isBlank = true) ∧
          (next (place.past run rest)).isSome) := by
    intro count
    induction count with
    | zero =>
        intro place short
        have ended : place.rest = [] := List.length_eq_zero_iff.mp (Nat.le_zero.mp short)
        rw [greedyTurns]
        constructor
        · intro found
          exact ⟨[], place.rest, rfl, by simp, found⟩
        · rintro ⟨run, rest, split, -, found⟩
          rw [ended] at split
          obtain ⟨rfl, rfl⟩ := List.append_eq_nil_iff.mp split.symm
          have stays := Place.past_nil place
          rw [ended] at stays
          rwa [stays] at found
    | succ count ih =>
        intro place short
        rw [greedyTurns_succ, search_one]
        constructor
        · rintro (⟨symbol, others, ahead, accepted, found⟩ | found)
          · rw [ahead, List.length_cons] at short
            rw [if_pos (Nat.lt_succ_self _)] at found
            obtain ⟨run, rest, othersEq, blanks, foundNext⟩ := (ih _ (Nat.le_of_succ_le_succ short)).mp found
            obtain rfl : others = run ++ rest := othersEq
            rw [accepts] at accepted
            refine ⟨symbol :: run, rest, ahead, List.forall_mem_cons.mpr ⟨accepted, blanks⟩, ?_⟩
            rwa [Place.past_cons]
          · exact ⟨[], place.rest, rfl, by simp, found⟩
        · rintro ⟨run, rest, split, blanks, found⟩
          cases run with
          | nil =>
              obtain rfl : place.rest = rest := split
              exact Or.inr found
          | cons symbol run =>
              left
              rw [List.forall_mem_cons] at blanks
              rw [Place.past_cons] at found
              rw [split, List.cons_append, List.length_cons] at short
              refine ⟨symbol, run ++ rest, split, by rw [accepts, blanks.1], ?_⟩
              rw [if_pos (Nat.lt_succ_self _)]
              exact (ih _ (Nat.le_of_succ_le_succ short)).mpr ⟨run, rest, rfl, blanks.2, found⟩
  exact turns place.rest.length place (Nat.le_refl _)

namespace Regex

theorem matchesFrom_iff {regex : Regex} {offset : Nat} {previous : Option Symbol} {text : Text} :
    regex.matchesFrom offset previous text = true ↔
      ∃ left right, text = left ++ right ∧
        regex.matchesAt ((⟨offset, previous, text⟩ : Place).past left right) = true := by
  induction text generalizing offset previous with
  | nil =>
      rw [matchesFrom]
      constructor
      · intro found
        exact ⟨[], [], rfl, found⟩
      · rintro ⟨left, right, split, found⟩
        obtain ⟨rfl, rfl⟩ := List.append_eq_nil_iff.mp split.symm
        exact found
  | cons symbol rest ih =>
      rw [matchesFrom, Bool.or_eq_true, ih]
      constructor
      · rintro (here | ⟨left, right, rfl, found⟩)
        · exact ⟨[], symbol :: rest, rfl, here⟩
        · exact ⟨symbol :: left, right, rfl, by rwa [Place.past_cons]⟩
      · rintro ⟨left, right, split, found⟩
        cases left with
        | nil =>
            obtain rfl : symbol :: rest = right := split
            exact Or.inl found
        | cons first left =>
            obtain ⟨rfl, rfl⟩ := List.cons.inj split
            exact Or.inr ⟨left, right, rfl, by rwa [Place.past_cons] at found⟩

/-- A pattern occurs in a text if it matches between what stands before a place and what stands after it. -/
theorem occursIn_iff {regex : Regex} {text : Text} :
    regex.occursIn text = true ↔
      ∃ left right, text = left ++ right ∧ regex.matchesAt ⟨left.length, left.getLast?, right⟩ = true := by
  rw [occursIn, matchesFrom_iff]
  simp only [Place.past, Nat.zero_add, Option.or_none]

theorem occursIn_literal {word text : Text} : (literal word).occursIn text = true ↔ word <:+: text := by
  rw [occursIn_iff]
  constructor
  · rintro ⟨left, right, rfl, found⟩
    obtain ⟨rest, rfl, -⟩ := search_literal.mp found
    exact ⟨left, rest, List.append_assoc _ _ _⟩
  · rintro ⟨left, rest, rfl⟩
    exact ⟨left, word ++ rest, List.append_assoc _ _ _, search_literal.mpr ⟨rest, rfl, rfl⟩⟩

theorem search_call {stem : Text} {place : Place} :
    ((Expr.sequence (.literal stem) (.sequence .blanks (.literal "("))).search false some place).isSome ↔
      ∃ run rest, place.rest = stem ++ (run ++ .glyph '(' :: rest) ∧ ∀ symbol ∈ run, symbol.isBlank = true := by
  rw [Expr.search, Expr.search, search_literal]
  constructor
  · rintro ⟨after, split, found⟩
    obtain ⟨run, later, laterEq, blanks, foundLater⟩ := search_blanks.mp found
    obtain ⟨rest, restEq, -⟩ := search_literal.mp foundLater
    obtain rfl : after = run ++ later := laterEq
    obtain rfl : later = "(" ++ rest := restEq
    exact ⟨run, rest, split, blanks⟩
  · rintro ⟨run, rest, split, blanks⟩
    exact ⟨_, split, search_blanks.mpr ⟨run, _, rfl, blanks, search_literal.mpr ⟨rest, rfl, rfl⟩⟩⟩

/-- A call: a word, blanks and a parenthesis. -/
theorem occursIn_call {stem text : Text} :
    occursIn ⟨.sequence (.literal stem) (.sequence .blanks (.literal "(")), false⟩ text = true ↔
      ∃ left run right, text = left ++ (stem ++ (run ++ .glyph '(' :: right)) ∧
        ∀ symbol ∈ run, symbol.isBlank = true := by
  rw [occursIn_iff]
  constructor
  · rintro ⟨left, right, rfl, found⟩
    obtain ⟨run, rest, rfl, blanks⟩ := search_call.mp found
    exact ⟨left, run, rest, rfl, blanks⟩
  · rintro ⟨left, run, right, rfl, blanks⟩
    exact ⟨left, _, rfl, search_call.mpr ⟨run, right, rfl, blanks⟩⟩

/-- A call whose word starts at the edge of a word. -/
theorem occursIn_edge_call {stem text : Text} (word : stem.head?.any Symbol.isWord = true) :
    occursIn ⟨.sequence (.anchor (.wordEdge true)) (.sequence (.literal stem) (.sequence .blanks (.literal "("))),
        false⟩ text = true ↔
      ∃ left run right, text = left ++ (stem ++ (run ++ .glyph '(' :: right)) ∧
        (∀ symbol ∈ run, symbol.isBlank = true) ∧ left.getLast?.any Symbol.isWord = false := by
  have edge : ∀ left tail : Text, Anchor.holdsAt ⟨left.length, left.getLast?, stem ++ tail⟩ (.wordEdge true) =
      !left.getLast?.any Symbol.isWord := by
    intro left tail
    cases stem with
    | nil => cases word
    | cons first others =>
        rw [List.head?_cons, Option.any_some] at word
        simp [Anchor.holdsAt, word]
  rw [occursIn_iff]
  constructor
  · rintro ⟨left, right, rfl, found⟩
    rw [matchesAt, Expr.search] at found
    obtain ⟨holds, call⟩ := search_anchor.mp found
    obtain ⟨run, rest, rfl, blanks⟩ := search_call.mp call
    rw [edge, Bool.not_eq_true'] at holds
    exact ⟨left, run, rest, rfl, blanks, holds⟩
  · rintro ⟨left, run, right, rfl, blanks, outside⟩
    refine ⟨left, _, rfl, ?_⟩
    rw [matchesAt, Expr.search]
    refine search_anchor.mpr ⟨?_, search_call.mpr ⟨run, right, rfl, blanks⟩⟩
    rw [edge, outside]
    rfl

end Regex

end Pattern

end AccessorLint
