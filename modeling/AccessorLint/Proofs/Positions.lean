import Mathlib
import AccessorLint.Proofs.Placement
set_option autoImplicit false

/-!
Offsets and places in lines.

An offset follows whole lines and the start of a line, which are its line and its column.  So the offsets of a text, its
end included, and the places in its lines, their ends included, correspond to each other, and the order of offsets is
the order of lines and, within a line, of columns.
-/

namespace AccessorLint.Source

open AccessorLint.Symbol (newline)
open AccessorLint.Text (WholeLines firstLine)

/-! ### The starts of lines -/

theorem go_sorted (offset : Nat) (text : Text) : (offset :: lineStarts.go offset text).Pairwise (· < ·) := by
  induction text generalizing offset with
  | nil => exact List.pairwise_singleton _ _
  | cons symbol rest ih =>
      have later := ih (offset + 1)
      have beyond : ∀ start ∈ lineStarts.go (offset + 1) rest, offset < start := by
        intro start member
        exact Nat.lt_of_succ_lt (List.rel_of_pairwise_cons later member)
      rw [lineStarts.go]
      split_ifs
      · rw [List.pairwise_cons, List.forall_mem_cons]
        exact ⟨⟨Nat.lt_succ_self offset, beyond⟩, later⟩
      · exact List.pairwise_cons.mpr ⟨beyond, later.of_cons⟩

theorem lineStarts_sorted (text : Text) : (lineStarts text).Pairwise (· < ·) :=
  go_sorted 0 text

/-! ### Places -/

/-- Whether a line and a column, both counted from one, are a place in a list of lines.  The end of a line belongs to
it. -/
structure IsPlace (lines : List Text) (line column : Nat) : Prop where
  linePos : 1 ≤ line
  lineBound : line ≤ lines.length
  columnPos : 1 ≤ column
  columnBound : ∃ contents, lines[line - 1]? = some contents ∧ column - 1 ≤ contents.length

/-- Whether a line and a column are those of an offset in a text: the line counts the newlines before the offset, and
the column counts from the start of the line. -/
structure Locates (text : Text) (offset line column : Nat) : Prop where
  isPlace : IsPlace text.lines line column
  newlines : line = 1 + (text.take offset).count newline
  fromStart : ∃ start, (lineStarts text)[line - 1]? = some start ∧ start + (column - 1) = offset

theorem position_locates {text : Text} {offset : Nat} (inside : offset ≤ text.length) :
    Locates text offset (position (lineStarts text) offset).1 (position (lineStarts text) offset).2 := by
  obtain ⟨above, front, rest, rfl, rfl, whole, absent⟩ := Text.exists_line_at inside
  have newlines := position_line (above ++ (front ++ rest)) (above ++ front).length
  rw [position_eq whole absent] at newlines ⊢
  refine ⟨⟨Nat.le_add_left 1 _, ?_, Nat.le_add_left 1 _, firstLine (front ++ rest), Text.lines_whole whole _, ?_⟩,
    newlines.trans (Nat.add_comm _ 1), above.length, ?_, List.length_append.symm⟩
  · rw [Text.lines_length, List.count_append]
    omega
  · rw [Text.firstLine_append absent, List.length_append, Nat.add_sub_cancel]
    exact Nat.le_add_right _ _
  · rw [lineStarts, Nat.add_sub_cancel, lineStarts_whole 0 whole, Nat.zero_add]

theorem exists_above_line {text contents : Text} {index : Nat} (found : text.lines[index]? = some contents) :
    ∃ above rest, text = above ++ (contents ++ rest) ∧ WholeLines above ∧ above.count newline = index := by
  induction text using Text.line_induction generalizing index with
  | last line absent =>
      rw [Text.lines_of_not_mem absent] at found
      cases index with
      | zero =>
          obtain rfl := Option.some.inj found
          exact ⟨[], [], by simp, WholeLines.nil, rfl⟩
      | succ before => cases found
  | line line below absent ih =>
      rw [Text.lines_append_newline, Text.lines_of_not_mem absent] at found
      cases index with
      | zero =>
          obtain rfl := Option.some.inj found
          exact ⟨[], newline :: below, rfl, WholeLines.nil, rfl⟩
      | succ before =>
          obtain ⟨above, rest, rfl, whole, counted⟩ := ih found
          refine ⟨(line ++ [newline]) ++ above, rest, by simp, (WholeLines.append_newline line).append whole, ?_⟩
          rw [List.count_append, List.count_append, List.count_eq_zero_of_not_mem absent, counted,
            List.count_singleton_self]
          omega

theorem exists_offset {text : Text} {line column : Nat} (place : IsPlace text.lines line column) :
    ∃ offset ≤ text.length, position (lineStarts text) offset = (line, column) := by
  obtain ⟨linePos, -, columnPos, contents, found, bound⟩ := place
  obtain ⟨above, rest, rfl, whole, counted⟩ := exists_above_line found
  have absent : newline ∉ contents.take (column - 1) := by
    intro member
    exact Text.not_mem_of_mem_split (List.mem_of_getElem? found) (List.mem_of_mem_take member)
  have placed := position_eq whole absent (contents.drop (column - 1) ++ rest)
  rw [← List.append_assoc _ _ rest, List.take_append_drop, counted, List.length_take_of_le bound,
    Nat.sub_add_cancel linePos, Nat.sub_add_cancel columnPos] at placed
  refine ⟨_, ?_, placed⟩
  rw [List.length_append, List.length_append, List.length_append, List.length_take_of_le bound]
  omega

theorem position_strictMonoOn (text : Text) :
    StrictMonoOn (fun offset => toLex (position (lineStarts text) offset)) (Set.Iic text.length) := by
  intro first firstInside second secondInside before
  obtain ⟨-, newlines, start, found, same⟩ := position_locates firstInside
  obtain ⟨-, otherNewlines, other, otherFound, otherSame⟩ := position_locates secondInside
  have counted : (text.take first).count newline ≤ (text.take second).count newline :=
    (List.take_sublist_take_left (Nat.le_of_lt before)).count_le newline
  rw [Prod.Lex.toLex_lt_toLex]
  rcases Nat.lt_or_ge (position (lineStarts text) first).1 (position (lineStarts text) second).1 with above | onward
  · exact .inl above
  · -- on one line both columns count from one start
    have sameLine : (position (lineStarts text) first).1 = (position (lineStarts text) second).1 := by omega
    rw [← sameLine, found] at otherFound
    obtain rfl := Option.some.inj otherFound
    exact .inr ⟨sameLine, by omega⟩

/-- The line of an offset counts the newlines before it, and its column counts from the start of that line.  The offsets
of a text, its end included, correspond one to one to the places in its lines, their ends included, and a greater offset
has a later place.  The starts of lines increase, so a line can be searched for among them. -/
theorem offsets_and_places_correspond (text : Text) :
    (∀ offset ≤ text.length,
      Locates text offset (position (lineStarts text) offset).1 (position (lineStarts text) offset).2) ∧
    Set.BijOn (position (lineStarts text)) (Set.Iic text.length) {place | IsPlace text.lines place.1 place.2} ∧
    StrictMonoOn (fun offset => toLex (position (lineStarts text) offset)) (Set.Iic text.length) ∧
    (lineStarts text).Pairwise (· < ·) := by
  have mono := position_strictMonoOn text
  refine ⟨fun offset inside => position_locates inside, ⟨?_, ?_, ?_⟩, mono, lineStarts_sorted text⟩
  · intro offset inside
    exact (position_locates inside).isPlace
  · intro first firstInside second secondInside same
    exact mono.injOn firstInside secondInside (congrArg toLex same)
  · rintro ⟨line, column⟩ place
    obtain ⟨offset, inside, same⟩ := exists_offset place
    exact ⟨offset, inside, same⟩

theorem end_of_text_on_last_line :
    let text : Text := "ab\n\ncd\n"
    7 ≤ text.length ∧ position (lineStarts text) 7 = (4, 1) ∧ Locates text 7 4 1 ∧
      toLex (position (lineStarts text) 2) < toLex (position (lineStarts text) 3) := by
  intro text
  have inside : 7 ≤ text.length := by decide
  obtain ⟨located, -, mono, -⟩ := offsets_and_places_correspond text
  exact ⟨inside, by decide, located 7 inside, mono (by decide : 2 ≤ 7) (by decide : 3 ≤ 7) (by decide)⟩

end AccessorLint.Source
