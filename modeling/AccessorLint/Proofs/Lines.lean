import Mathlib
import AccessorLint.Text.Lines
set_option autoImplicit false

/-!
Lines and trimming.  Dividing a text at a symbol is settled by one equation: at each divider the parts of the text
before it and those of the text after it meet.  Trimming takes nothing from between two symbols that are not blank.
-/

namespace AccessorLint.Text

open AccessorLint.Symbol (newline)

/-! ### Dividing -/

theorem split_ne_nil (divider : Symbol) (text : Text) : split divider text ≠ [] := by
  cases text with
  | nil => exact List.cons_ne_nil _ _
  | cons symbol rest =>
      rw [split]
      split
      · exact List.cons_ne_nil _ _
      · split <;> exact List.cons_ne_nil _ _

/-- A symbol that is no divider belongs to the first part of what follows. -/
theorem split_cons_of_ne {divider symbol : Symbol} (different : symbol ≠ divider) (rest part : Text)
    (later : List Text) (parts : split divider rest = part :: later) :
    split divider (symbol :: rest) = (symbol :: part) :: later := by
  rw [split, if_neg different, parts]

/-- The parts before a divider and those after it are the parts of the whole text. -/
theorem split_append_cons (divider : Symbol) (left right : Text) :
    split divider (left ++ divider :: right) = split divider left ++ split divider right := by
  induction left with
  | nil =>
      rw [List.nil_append, split.eq_2, if_pos rfl]
      rfl
  | cons symbol rest ih =>
      by_cases same : symbol = divider
      · rw [List.cons_append, split, if_pos same, ih, split, if_pos same]
        rfl
      · obtain ⟨part, later, parts⟩ := List.exists_cons_of_ne_nil (split_ne_nil divider rest)
        rw [parts] at ih
        rw [List.cons_append, split_cons_of_ne same _ part _ ih, split_cons_of_ne same rest part later parts]
        rfl

theorem split_of_not_mem {divider : Symbol} {text : Text} (absent : divider ∉ text) :
    split divider text = [text] := by
  induction text with
  | nil => rfl
  | cons symbol rest ih =>
      rw [List.mem_cons, not_or] at absent
      exact split_cons_of_ne (Ne.symm absent.1) rest rest [] (ih absent.2)

theorem not_mem_of_mem_split {divider : Symbol} {text part : Text} (member : part ∈ split divider text) :
    divider ∉ part := by
  induction text generalizing part with
  | nil =>
      rw [List.mem_singleton.mp member]
      exact List.not_mem_nil
  | cons symbol rest ih =>
      by_cases same : symbol = divider
      · rw [split, if_pos same] at member
        rcases List.mem_cons.mp member with rfl | later
        · exact List.not_mem_nil
        · exact ih later
      · obtain ⟨first, later, parts⟩ := List.exists_cons_of_ne_nil (split_ne_nil divider rest)
        rw [split_cons_of_ne same rest first later parts] at member
        rw [parts] at ih
        rcases List.mem_cons.mp member with rfl | inLater
        · rw [List.mem_cons, not_or]
          exact ⟨Ne.symm same, ih List.mem_cons_self⟩
        · exact ih (List.mem_cons_of_mem _ inLater)

theorem joined_singleton (separator part : Text) : joined separator [part] = part := by
  simp [joined]

theorem joined_cons_cons (separator part next : Text) (others : List Text) :
    joined separator (part :: next :: others) = part ++ (separator ++ joined separator (next :: others)) := by
  rw [joined, List.intercalate_cons_cons, List.append_assoc]
  rfl

/-- Dividing undoes joining. -/
theorem split_joined {divider : Symbol} {parts : List Text} (nonempty : parts ≠ [])
    (absent : ∀ part ∈ parts, divider ∉ part) : split divider (joined [divider] parts) = parts := by
  induction parts with
  | nil => exact absurd rfl nonempty
  | cons part others ih =>
      have here := split_of_not_mem (absent part List.mem_cons_self)
      cases others with
      | nil => rw [joined_singleton, here]
      | cons next later =>
          have rest := ih (List.cons_ne_nil _ _) fun other member => absent other (List.mem_cons_of_mem _ member)
          rw [joined_cons_cons, List.singleton_append, split_append_cons, here, rest]
          rfl

theorem lines_append_newline (left right : Text) :
    lines (left ++ newline :: right) = lines left ++ lines right :=
  split_append_cons newline left right

theorem lines_of_not_mem {text : Text} (absent : newline ∉ text) : lines text = [text] :=
  split_of_not_mem absent

/-! ### The first line -/

theorem newline_not_mem_firstLine (text : Text) : newline ∉ firstLine text := by
  intro member
  have inside := List.mem_takeWhile_imp member
  simp at inside

theorem firstLine_length_le (text : Text) : (firstLine text).length ≤ text.length :=
  (List.takeWhile_prefix _).length_le

theorem take_firstLine (text : Text) : text.take (firstLine text).length = firstLine text :=
  (List.prefix_iff_eq_take.mp (List.takeWhile_prefix _)).symm

theorem firstLine_append_newline {line : Text} (absent : newline ∉ line) (rest : Text) :
    firstLine (line ++ newline :: rest) = line := by
  rw [firstLine, List.takeWhile_append_of_pos, List.takeWhile_cons_of_neg, List.append_nil]
  · simp
  · intro symbol member
    simp only [bne_iff_ne, ne_eq]
    rintro rfl
    exact absent member

theorem firstLine_of_not_mem {text : Text} (absent : newline ∉ text) : firstLine text = text := by
  rw [firstLine, List.takeWhile_eq_self_iff]
  intro symbol member
  simp only [bne_iff_ne, ne_eq]
  rintro rfl
  exact absent member

theorem firstLine_append {front : Text} (absent : newline ∉ front) (rest : Text) :
    firstLine (front ++ rest) = front ++ firstLine rest := by
  apply List.takeWhile_append_of_pos
  intro symbol member
  rw [bne_iff_ne]
  rintro rfl
  exact absent member

/-- A text is one line, or a line, a newline and the text below. -/
theorem line_cases (text : Text) :
    newline ∉ text ∨ ∃ line rest, newline ∉ line ∧ text = line ++ newline :: rest := by
  by_cases member : newline ∈ text
  · obtain ⟨line, rest, same, absent⟩ := List.eq_append_cons_of_mem member
    exact Or.inr ⟨line, rest, absent, same⟩
  · exact Or.inl member

/-- The first line does not depend on what comes after a newline. -/
theorem firstLine_append_of_mem {text : Text} (member : newline ∈ text) (rest : Text) :
    firstLine (text ++ rest) = firstLine text := by
  rcases line_cases text with absent | ⟨line, below, absent, rfl⟩
  · exact absurd member absent
  · rw [List.append_assoc, List.cons_append, firstLine_append_newline absent, firstLine_append_newline absent]

theorem mem_of_mem_firstLine_append {symbol : Symbol} {line rest : Text}
    (member : symbol ∈ firstLine (line ++ newline :: rest)) : symbol ∈ line := by
  rcases line_cases line with absent | ⟨first, below, absent, rfl⟩
  · rwa [firstLine_append_newline absent] at member
  · rw [List.append_assoc, List.cons_append, firstLine_append_newline absent] at member
    exact List.mem_append_left _ member

theorem mem_firstLine {front back : Text} {symbol : Symbol} (absent : newline ∉ front) (other : symbol ≠ newline) :
    symbol ∈ firstLine (front ++ symbol :: back) := by
  rw [firstLine, List.takeWhile_append_of_pos, List.takeWhile_cons_of_pos (by simpa using other)]
  · simp
  · intro first member
    rw [bne_iff_ne]
    rintro rfl
    exact absent member

/-- Induction over the lines of a text. -/
@[elab_as_elim]
theorem line_induction {motive : Text → Prop} (last : ∀ line, newline ∉ line → motive line)
    (line : ∀ line rest, newline ∉ line → motive rest → motive (line ++ newline :: rest)) (text : Text) :
    motive text := by
  induction length : text.length using Nat.strong_induction_on generalizing text with
  | _ size ih =>
      rcases line_cases text with absent | ⟨first, rest, absent, rfl⟩
      · exact last text absent
      · refine line first rest absent (ih rest.length ?_ rest rfl)
        rw [← length, List.length_append, List.length_cons]
        omega

/-! ### Whole lines -/

/-- Whether a text is made of whole lines: it is empty or ends with a newline. -/
def WholeLines (text : Text) : Prop :=
  ∀ last ∈ text.getLast?, last = newline

theorem WholeLines.nil : WholeLines [] := by
  intro last member
  cases member

theorem WholeLines.append_newline (text : Text) : WholeLines (text ++ [newline]) := by
  intro last member
  rw [List.getLast?_concat] at member
  exact (Option.some.inj member).symm

theorem WholeLines.append {left right : Text} (first : WholeLines left) (second : WholeLines right) :
    WholeLines (left ++ right) := by
  intro last member
  by_cases ended : right = []
  · rw [ended, List.append_nil] at member
    exact first last member
  · rw [List.getLast?_append_of_ne_nil _ ended] at member
    exact second last member

/-- What is left of whole lines is made of whole lines. -/
theorem WholeLines.of_append {left right : Text} (whole : WholeLines (left ++ right)) : WholeLines right := by
  intro last member
  apply whole last
  rw [List.getLast?_append, Option.mem_def.mp member]
  rfl

theorem WholeLines.drop {text : Text} (whole : WholeLines text) (length : Nat) : WholeLines (text.drop length) :=
  WholeLines.of_append ((List.take_append_drop length text).symm ▸ whole)

theorem WholeLines.mem_newline {text : Text} (whole : WholeLines text) (nonempty : text ≠ []) : newline ∈ text := by
  obtain ⟨last, found⟩ := Option.ne_none_iff_exists'.mp (mt List.getLast?_eq_none_iff.mp nonempty)
  exact whole last found ▸ List.mem_of_getLast? found

theorem WholeLines.eq_nil {text : Text} (whole : WholeLines text) (absent : newline ∉ text) : text = [] := by
  by_contra nonempty
  exact absent (whole.mem_newline nonempty)

/-! ### Trimming -/

/-- Trimming keeps a symbol that is not blank with everything on its right. -/
theorem trimLeft_append {symbol : Symbol} (visible : symbol.isBlank = false) (left right : Text) :
    trimLeft (left ++ symbol :: right) = trimLeft left ++ symbol :: right := by
  simp only [trimLeft, List.dropWhile_append]
  split
  · rename_i empty
    rw [List.isEmpty_iff.mp empty, List.dropWhile_cons_of_neg (by simp [visible]), List.nil_append]
  · rfl

/-- Trimming keeps a symbol that is not blank with everything on its left. -/
theorem trimRight_append {symbol : Symbol} (visible : symbol.isBlank = false) (left right : Text) :
    trimRight (left ++ symbol :: right) = left ++ symbol :: trimRight right := by
  have trimmed := trimLeft_append visible right.reverse left.reverse
  simp only [trimLeft] at trimmed
  simp only [trimRight, List.reverse_append, List.reverse_cons, List.append_assoc, List.singleton_append, trimmed,
    List.reverse_reverse]

/-- Trimming takes nothing from between two symbols that are not blank. -/
theorem trim_append {first last : Symbol} (firstVisible : first.isBlank = false) (lastVisible : last.isBlank = false)
    (left middle right : Text) :
    trim (left ++ first :: (middle ++ last :: right)) =
      trimLeft left ++ first :: (middle ++ last :: trimRight right) := by
  rw [trim, trimLeft_append firstVisible]
  have regrouped : trimLeft left ++ first :: (middle ++ last :: right) =
      (trimLeft left ++ first :: middle) ++ last :: right := by simp
  rw [regrouped, trimRight_append lastVisible]
  simp

theorem trimRight_append_blanks (text : Text) {blanks : Text} (blank : ∀ symbol ∈ blanks, symbol.isBlank = true) :
    trimRight (text ++ blanks) = trimRight text := by
  have reversed : ∀ symbol ∈ blanks.reverse, symbol.isBlank = true :=
    fun symbol member => blank symbol (List.mem_reverse.mp member)
  rw [trimRight, List.reverse_append, List.dropWhile_append_of_pos reversed, trimRight]

theorem trim_append_blanks (line : Text) {blanks : Text} (blank : ∀ symbol ∈ blanks, symbol.isBlank = true) :
    trim (line ++ blanks) = trim line := by
  unfold trim trimLeft
  rw [List.dropWhile_append]
  split
  · rename_i empty
    rw [List.isEmpty_iff.mp empty, List.dropWhile_eq_nil_iff.mpr blank]
  · exact trimRight_append_blanks _ blank

theorem trim_blanks_append {blanks : Text} (blank : ∀ symbol ∈ blanks, symbol.isBlank = true) (line : Text) :
    trim (blanks ++ line) = trim line := by
  rw [trim, trimLeft, List.dropWhile_append_of_pos blank]
  rfl

theorem trim_trimRight (line : Text) : trim (trimRight line) = trim line := by
  have whole : line = trimRight line ++ (line.reverse.takeWhile Symbol.isBlank).reverse := by
    rw [trimRight, ← List.reverse_append, List.takeWhile_append_dropWhile, List.reverse_reverse]
  have blank : ∀ symbol ∈ (line.reverse.takeWhile Symbol.isBlank).reverse, symbol.isBlank = true :=
    fun symbol member => List.mem_takeWhile_imp (List.mem_reverse.mp member)
  rw [← trim_append_blanks (trimRight line) blank, ← whole]

theorem mem_trim {symbol : Symbol} {text : Text} (visible : symbol.isBlank = false) (member : symbol ∈ text) :
    symbol ∈ trim text := by
  obtain ⟨left, right, rfl⟩ := List.append_of_mem member
  rw [trim, trimLeft_append visible, trimRight_append visible]
  simp

end AccessorLint.Text
