import Mathlib
import AccessorLint.Files.Exclusion
import AccessorLint.Proofs.Occurrences
set_option autoImplicit false

/-!
What patterns without wildcards exclude.

Such a pattern matches itself only, whatever other marks it holds, and with `**` after it exactly the texts that start
with it.  It therefore excludes the path that it writes and the paths below the directory that it names.
-/

namespace AccessorLint

namespace Wildcard

/-- Whether a pattern has none of the symbols that open a wildcard. -/
def IsPlain (pattern : Text) : Prop :=
  ∀ symbol ∈ pattern, symbol ≠ .glyph '*' ∧ symbol ≠ .glyph '?' ∧ symbol ≠ .glyph '['

theorem isWild_eq_false_iff {pattern : Text} : isWild pattern = false ↔ IsPlain pattern := by
  simp [isWild, IsPlain, Symbol.isOneOf]

theorem IsPlain.append {left right : Text} (leftPlain : IsPlain left) (rightPlain : IsPlain right) :
    IsPlain (left ++ right) :=
  List.forall_mem_append.mpr ⟨leftPlain, rightPlain⟩

/-! ### Items -/

/-- The item that asks for one symbol. -/
def exactly (symbol : Symbol) : Item :=
  .set [(symbol.code, symbol.code)] true

theorem accepts_exactly {symbol other : Symbol} : (exactly symbol).accepts other = true ↔ other = symbol := by
  simp only [exactly, Item.accepts, List.any_cons, List.any_nil, Bool.or_false, beq_true, Bool.and_eq_true,
    decide_eq_true_eq]
  constructor
  · intro between
    exact Symbol.code_injective (Nat.le_antisymm between.2 between.1)
  · rintro rfl
    exact ⟨Nat.le_refl _, Nat.le_refl _⟩

theorem items_append {plain : Text} (isPlain : IsPlain plain) (rest : Text) :
    items (plain ++ rest) = plain.map exactly ++ items rest := by
  induction plain with
  | nil => rfl
  | cons symbol others ih =>
      obtain ⟨⟨noStar, noMark, noBracket⟩, othersPlain⟩ := List.forall_mem_cons.mp isPlain
      have step : items (symbol :: (others ++ rest)) = exactly symbol :: items (others ++ rest) := by
        rw [items, itemsAfter, if_neg noStar, if_neg noMark, if_neg noBracket]
        rfl
      rw [List.cons_append, step, ih othersPlain]
      rfl

theorem covers_exactly_cons {symbol : Symbol} {later : List Item} {text : Text} :
    covers (exactly symbol :: later) text = true ↔ ∃ rest, text = symbol :: rest ∧ covers later rest = true := by
  cases text with
  | nil => simp [exactly, covers]
  | cons first rest =>
      have step : covers (exactly symbol :: later) (first :: rest) =
          ((exactly symbol).accepts first && covers later rest) := rfl
      rw [step, Bool.and_eq_true, accepts_exactly]
      constructor
      · rintro ⟨rfl, covered⟩
        exact ⟨rest, rfl, covered⟩
      · rintro ⟨_, same, covered⟩
        obtain ⟨rfl, rfl⟩ := List.cons.inj same
        exact ⟨rfl, covered⟩

theorem covers_exactly_append {plain : Text} {later : List Item} {text : Text} :
    covers (plain.map exactly ++ later) text = true ↔ ∃ rest, text = plain ++ rest ∧ covers later rest = true := by
  induction plain generalizing text with
  | nil => simp
  | cons symbol others ih =>
      rw [List.map_cons, List.cons_append, covers_exactly_cons]
      constructor
      · rintro ⟨tail, rfl, covered⟩
        obtain ⟨rest, rfl, coveredRest⟩ := ih.mp covered
        exact ⟨rest, rfl, coveredRest⟩
      · rintro ⟨rest, rfl, coveredRest⟩
        exact ⟨others ++ rest, rfl, ih.mpr ⟨rest, rfl, coveredRest⟩⟩

theorem anyRest_of_suffix {test : Text → Bool} {rest text : Text} (suffix : rest <:+ text) (holds : test rest = true) :
    anyRest test text = true := by
  induction text with
  | nil =>
      rw [List.suffix_nil.mp suffix] at holds
      exact holds
  | cons symbol others ih =>
      rw [anyRest, Bool.or_eq_true]
      rcases List.suffix_cons_iff.mp suffix with rfl | later
      · exact .inl holds
      · exact .inr (ih later)

/-! ### Patterns without wildcards -/

theorem fits_iff_of_isPlain {pattern : Text} (plain : IsPlain pattern) {text : Text} :
    fits pattern text = true ↔ text = pattern := by
  have whole := items_append plain []
  rw [List.append_nil] at whole
  rw [fits, whole, covers_exactly_append]
  simp [items, itemsAfter, covers]

theorem fits_stars_iff {front : Text} (plain : IsPlain front) {text : Text} :
    fits (front ++ "**") text = true ↔ front <+: text := by
  have anything : ∀ rest, covers (items "**") rest = true := by
    intro rest
    have nothing : covers [.anything] [] = true := rfl
    exact anyRest_of_suffix List.nil_suffix nothing
  rw [fits, items_append plain, covers_exactly_append]
  constructor
  · rintro ⟨rest, rfl, -⟩
    exact List.prefix_append _ _
  · rintro ⟨rest, rfl⟩
    exact ⟨rest, rfl, anything rest⟩

end Wildcard

/-! ### Exclusion -/

open Wildcard (IsPlain)

theorem withoutTrailingSlashes_eq (text : Text) :
    withoutTrailingSlashes text = text.rdropWhile (· == Path.slash) := rfl

theorem withoutTrailingSlashes_of_last {text : Text} (last : text.getLast? ≠ some Path.slash) :
    withoutTrailingSlashes text = text := by
  rw [withoutTrailingSlashes_eq, List.rdropWhile_eq_self_iff]
  intro nonempty slash
  rw [beq_iff_eq] at slash
  exact last (by rw [List.getLast?_eq_some_getLast nonempty, slash])

theorem isPlain_withoutTrailingSlashes {pattern : Text} (plain : IsPlain pattern) :
    IsPlain (withoutTrailingSlashes pattern) := by
  intro symbol member
  rw [withoutTrailingSlashes_eq] at member
  exact plain symbol ((List.rdropWhile_prefix _ _).subset member)

theorem excludes_iff_of_isPlain {pattern : Text} (plain : IsPlain pattern) {path : Text} :
    excludes path pattern = true ↔ path = pattern ∨ withoutTrailingSlashes pattern ++ [Path.slash] <+: path := by
  have tame := Wildcard.isWild_eq_false_iff.mpr (isPlain_withoutTrailingSlashes plain)
  unfold excludes
  dsimp only
  rw [tame, Bool.not_false, Bool.true_and, Bool.or_eq_true, Wildcard.fits_iff_of_isPlain plain]
  exact or_congr_right List.isPrefixOf_iff_prefix

theorem excludes_stars_iff {front : Text} (plain : IsPlain front) {path : Text} :
    excludes path (front ++ "**") = true ↔ front <+: path := by
  have wild : Wildcard.isWild (front ++ "**") = true := by
    simp [Wildcard.isWild, Text.ofString, Symbol.isOneOf]
  -- such a pattern names no directory
  have last : (front ++ ("**" : Text)).getLast? ≠ some Path.slash := by
    rw [List.getLast?_append]
    exact fun slash => absurd slash (by simp [Text.ofString, Path.slash])
  unfold excludes
  dsimp only
  rw [withoutTrailingSlashes_of_last last, wild, Bool.not_true, Bool.false_and, Bool.or_false,
    Wildcard.fits_stars_iff plain]

theorem isExcluded_singleton (path pattern : Text) : isExcluded path [pattern] = excludes path pattern := by
  rw [isExcluded, List.any_cons, List.any_nil, Bool.or_false]

/-- A pattern without wildcards excludes exactly the path that it writes and the paths below the directory that it
names, with or without slashes at its end.  Unless it ends in a slash, these are the path itself and what the pattern
excludes with `/**` after it.  This holds of the empty pattern and of slashes alone, too. -/
theorem plain_pattern_excludes_subtree (path : Text) {pattern : Text}
    (plain : ∀ symbol ∈ pattern, symbol ≠ .glyph '*' ∧ symbol ≠ .glyph '?' ∧ symbol ≠ .glyph '[') :
    (isExcluded path [pattern] = true ↔
      path = pattern ∨ pattern.rdropWhile (· == Path.slash) ++ [Path.slash] <+: path) ∧
      (pattern.getLast? ≠ some Path.slash →
        (isExcluded path [pattern] = true ↔ path = pattern ∨ isExcluded path [pattern ++ "/**"] = true)) := by
  have subtree : isExcluded path [pattern] = true ↔
      path = pattern ∨ pattern.rdropWhile (· == Path.slash) ++ [Path.slash] <+: path := by
    rw [isExcluded_singleton]
    exact excludes_iff_of_isPlain plain
  refine ⟨subtree, fun last => ?_⟩
  have below : IsPlain (pattern ++ [Path.slash]) := Wildcard.IsPlain.append plain (by simp [IsPlain, Path.slash])
  have stars : pattern ++ ("/**" : Text) = (pattern ++ [Path.slash]) ++ ("**" : Text) := by
    rw [List.append_assoc]
    rfl
  rw [subtree, ← withoutTrailingSlashes_eq, withoutTrailingSlashes_of_last last, isExcluded_singleton, stars,
    excludes_stars_iff below]

theorem marked_directory_excluded_without_sibling :
    let pattern : Text := "lib/v.]!\\"
    (∀ symbol ∈ pattern, symbol ≠ .glyph '*' ∧ symbol ≠ .glyph '?' ∧ symbol ≠ .glyph '[') ∧
      pattern.getLast? ≠ some Path.slash ∧
      isExcluded "lib/v.]!\\/gem.rb" [pattern] = true ∧ isExcluded "lib/v.]!\\/gem.rb" [pattern ++ "/**"] = true ∧
      isExcluded "lib/v.]!\\s/gem.rb" [pattern] = false := by
  intro pattern
  have plain : ∀ symbol ∈ pattern, symbol ≠ .glyph '*' ∧ symbol ≠ .glyph '?' ∧ symbol ≠ .glyph '[' := by decide
  have last : pattern.getLast? ≠ some Path.slash := by decide
  obtain ⟨inside, stars⟩ := plain_pattern_excludes_subtree "lib/v.]!\\/gem.rb" plain
  obtain ⟨sibling, -⟩ := plain_pattern_excludes_subtree "lib/v.]!\\s/gem.rb" plain
  have excluded := inside.mpr (.inr (by decide))
  refine ⟨plain, last, excluded, ((stars last).mp excluded).resolve_left (by decide), ?_⟩
  rw [Bool.eq_false_iff, ne_eq, sibling]
  decide

end AccessorLint
