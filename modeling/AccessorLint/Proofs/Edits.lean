import Mathlib
import AccessorLint.Lint.Correction
set_option autoImplicit false

/-!
What a buffer of edits does to its source.

Applied from the last to the first, edits leave the symbols between their ranges where they stand, with the new texts
between them.  Edits that lie apart are all accepted, and replace their ranges at once.
-/

namespace AccessorLint

/-- Whether the edit replaces the symbol at an offset. -/
def Edit.covers (edit : Edit) (offset : Nat) : Bool :=
  decide (edit.start ≤ offset) && decide (offset < edit.stop)

/-- A text that starts at an offset, after all edits at once.  A symbol that no edit covers stays; the first symbol
of a range becomes the new text, and the others vanish. -/
def substitute (edits : List Edit) : Nat → Text → Text
  | _, [] => []
  | offset, symbol :: rest =>
      let shown : Text :=
        match edits.find? fun edit => edit.covers offset with
        | none => [symbol]
        | some edit => if edit.start = offset then edit.text else []
      shown ++ substitute edits (offset + 1) rest

/-- Whether edits of a text with a length lie inside it, one after the other and apart. -/
structure Ascending (length : Nat) (edits : List Edit) : Prop where
  proper : ∀ edit ∈ edits, 0 ≤ edit.start ∧ edit.start < edit.stop ∧ edit.stop ≤ length
  apart : edits.Pairwise fun first second => first.stop < second.start

/-! ### Pieces -/

/-- A symbol of the source that stays, with its offset, or the text of an edit. -/
inductive Piece where
  | kept (offset : Nat) (symbol : Symbol)
  | placed (edit : Edit)

namespace Piece

/-- The part of the source for which a piece stands. -/
def start : Piece → Int
  | kept offset _ => offset
  | placed edit => edit.start

def stop : Piece → Int
  | kept offset _ => offset + 1
  | placed edit => edit.stop

def text : Piece → Text
  | kept _ symbol => [symbol]
  | placed edit => edit.text

end Piece

/-- The symbols of a text that starts at an offset, as far as no edit covers them. -/
def untouched (edits : List Edit) : Nat → Text → List Piece
  | _, [] => []
  | offset, symbol :: rest =>
      if edits.any fun edit => edit.covers offset then untouched edits (offset + 1) rest
      else .kept offset symbol :: untouched edits (offset + 1) rest

theorem text_untouched_nil (offset : Nat) (text : Text) : (untouched [] offset text).flatMap Piece.text = text := by
  induction text generalizing offset with
  | nil => rfl
  | cons symbol rest ih =>
      rw [untouched, List.any_nil, if_neg Bool.false_ne_true, List.flatMap_cons, ih]
      rfl

/-! ### Substitution -/

theorem substitute_append (edits : List Edit) (offset : Nat) (left right : Text) :
    substitute edits offset (left ++ right) =
      substitute edits offset left ++ substitute edits (offset + left.length) right := by
  induction left generalizing offset with
  | nil => rfl
  | cons symbol rest ih =>
      have next : offset + 1 + rest.length = offset + (rest.length + 1) := by omega
      rw [List.cons_append, substitute, substitute, ih, List.length_cons, List.append_assoc, next]

/-- Only the edits of the range count. -/
theorem substitute_congr {edits others : List Edit} {offset : Nat} {text : Text}
    (same : ∀ place, offset ≤ place → place < offset + text.length →
      (edits.find? fun edit => edit.covers place) = others.find? fun edit => edit.covers place) :
    substitute edits offset text = substitute others offset text := by
  induction text generalizing offset with
  | nil => rfl
  | cons symbol rest ih =>
      rw [List.length_cons] at same
      rw [substitute, substitute, same offset (Nat.le_refl _) (by omega),
        ih fun place after before => same place (by omega) (by omega)]

theorem substitute_nil (offset : Nat) (text : Text) : substitute [] offset text = text := by
  induction text generalizing offset with
  | nil => rfl
  | cons symbol rest ih =>
      rw [substitute, ih]
      rfl

theorem substitute_outside {edits : List Edit} {offset : Nat} {text : Text}
    (outside : ∀ edit ∈ edits, edit.stop ≤ offset) : substitute edits offset text = text := by
  have nothing : substitute edits offset text = substitute [] offset text := by
    apply substitute_congr
    intro place after before
    rw [List.find?_nil, List.find?_eq_none]
    intro edit member covered
    have ended := outside edit member
    simp only [Edit.covers, Bool.and_eq_true, decide_eq_true_eq] at covered
    omega
  rw [nothing, substitute_nil]

/-- Inside a range symbols vanish. -/
theorem substitute_inside {edits : List Edit} {edit : Edit} {offset : Nat} {text : Text}
    (found : ∀ place, offset ≤ place → place < offset + text.length →
      (edits.find? fun edit => edit.covers place) = some edit) (begun : edit.start < offset) :
    substitute edits offset text = [] := by
  induction text generalizing offset with
  | nil => rfl
  | cons symbol rest ih =>
      rw [List.length_cons] at found
      rw [substitute, found offset (Nat.le_refl _) (by omega),
        ih (fun place after before => found place (by omega) (by omega)) (by omega)]
      simp only [List.append_nil]
      exact if_neg (by omega)

theorem substitute_range {edits : List Edit} {edit : Edit} {offset : Nat} {text : Text} (nonempty : text ≠ [])
    (found : ∀ place, offset ≤ place → place < offset + text.length →
      (edits.find? fun edit => edit.covers place) = some edit) (begins : edit.start = offset) :
    substitute edits offset text = edit.text := by
  cases text with
  | nil => exact absurd rfl nonempty
  | cons symbol rest =>
      rw [List.length_cons] at found
      rw [substitute, found offset (Nat.le_refl _) (by omega),
        substitute_inside (fun place after before => found place (by omega) (by omega)) (by omega)]
      simp only [List.append_nil]
      exact if_pos begins

namespace EditBuffer

/-! ### From the last to the first -/

/-- Whether edits lie inside a source of a length, each before those that stand earlier in the list. -/
structure Descending (length : Nat) (edits : List Edit) : Prop where
  inside : ∀ edit ∈ edits, 0 ≤ edit.start ∧ edit.start ≤ edit.stop ∧ edit.stop ≤ length
  order : edits.Pairwise fun later earlier => earlier.stop ≤ later.start

theorem ordered_perm (edits : List Edit) : (ordered edits).Perm edits :=
  List.mergeSort_perm edits _

theorem start_trans (first second third : Edit) (before : decide (second.start ≤ first.start) = true)
    (after : decide (third.start ≤ second.start) = true) : decide (third.start ≤ first.start) = true := by
  rw [decide_eq_true_eq] at before after ⊢
  exact Int.le_trans after before

theorem start_total (first second : Edit) :
    (decide (second.start ≤ first.start) || decide (first.start ≤ second.start)) = true := by
  rw [Bool.or_eq_true, decide_eq_true_eq, decide_eq_true_eq]
  exact Int.le_total second.start first.start

theorem ordered_pairwise (edits : List Edit) :
    (ordered edits).Pairwise fun later earlier => earlier.start ≤ later.start := by
  have sorted : (ordered edits).Pairwise fun later earlier => decide (earlier.start ≤ later.start) = true :=
    List.pairwise_mergeSort start_trans start_total edits
  exact sorted.imp of_decide_eq_true

theorem ordered_of_pairwise {edits : List Edit}
    (sorted : edits.Pairwise fun later earlier => earlier.start ≤ later.start) : ordered edits = edits :=
  List.mergeSort_of_pairwise (sorted.imp fun order => decide_eq_true order)

theorem Descending.mono {length longer : Nat} {edits : List Edit} (descending : Descending length edits)
    (atMost : length ≤ longer) : Descending longer edits := by
  refine ⟨?_, descending.order⟩
  intro edit member
  have inside := descending.inside edit member
  omega

/-- All other edits lie before the first of the list. -/
theorem Descending.tail {source : Text} {edit : Edit} {rest : List Edit}
    (descending : Descending source.length (edit :: rest)) :
    (source.take edit.start.toNat).length = edit.start.toNat ∧
      Descending (source.take edit.start.toNat).length rest := by
  have inside := descending.inside edit List.mem_cons_self
  obtain ⟨before, order⟩ := List.pairwise_cons.mp descending.order
  have size : (source.take edit.start.toNat).length = edit.start.toNat := List.length_take_of_le (by omega)
  refine ⟨size, ?_, order⟩
  intro earlier member
  have earlierInside := descending.inside earlier (List.mem_cons_of_mem edit member)
  have ends := before earlier member
  omega

/-- Edits of a text leave what stands behind it alone. -/
theorem foldl_apply_append {edits : List Edit} {left : Text} (right : Text)
    (descending : Descending left.length edits) :
    edits.foldl apply (left ++ right) = edits.foldl apply left ++ right := by
  induction edits generalizing left with
  | nil => rfl
  | cons edit rest ih =>
      have inside := descending.inside edit List.mem_cons_self
      have applied : apply (left ++ right) edit = apply left edit ++ right := by
        rw [apply, apply, List.take_append_of_le_length (by omega), List.drop_append_of_le_length (by omega)]
        simp only [List.append_assoc]
      rw [List.foldl_cons, List.foldl_cons, applied]
      apply ih
      apply descending.tail.2.mono
      rw [apply, List.length_append, List.length_append]
      omega

/-- The pieces of a source in their order, by the edits from the last to the first. -/
def piecesOf : Text → List Edit → List Piece
  | source, [] => untouched [] 0 source
  | source, edit :: rest =>
      piecesOf (source.take edit.start.toNat) rest ++
        .placed edit :: untouched [] edit.stop.toNat (source.drop edit.stop.toNat)

theorem text_piecesOf {source : Text} {edits : List Edit} (descending : Descending source.length edits) :
    (piecesOf source edits).flatMap Piece.text = edits.foldl apply source := by
  induction edits generalizing source with
  | nil => exact text_untouched_nil 0 source
  | cons edit rest ih =>
      have before := descending.tail.2
      rw [piecesOf, List.flatMap_append, List.flatMap_cons, ih before, text_untouched_nil, List.foldl_cons, apply,
        List.append_assoc, foldl_apply_append _ before]
      rfl

/-! ### Edits that lie apart -/

/-- The parts of a text before, inside and after the range of an edit. -/
theorem exists_parts {edit : Edit} {text : Text} (positive : 0 ≤ edit.start) (nonempty : edit.start < edit.stop)
    (within : edit.stop ≤ text.length) :
    ∃ left middle right, text = left ++ (middle ++ right) ∧ middle ≠ [] ∧ edit.start = left.length ∧
      edit.stop = left.length + middle.length ∧ apply text edit = left ++ (edit.text ++ right) := by
  obtain ⟨start, startEq⟩ := Int.eq_ofNat_of_zero_le positive
  obtain ⟨stop, stopEq⟩ := Int.eq_ofNat_of_zero_le (show 0 ≤ edit.stop by omega)
  refine ⟨text.take start, (text.drop start).take (stop - start), text.drop stop, ?_, ?_, ?_, ?_, ?_⟩
  · have rest : (text.drop start).drop (stop - start) = text.drop stop := by
      rw [List.drop_drop]
      congr 1
      omega
    rw [← rest, List.take_append_drop, List.take_append_drop]
  · intro nothing
    have size := congrArg List.length nothing
    rw [List.length_take, List.length_drop, List.length_nil] at size
    omega
  · rw [List.length_take_of_le (by omega), startEq]
  · rw [List.length_take_of_le (by omega), List.length_take_of_le (by rw [List.length_drop]; omega), stopEq]
    omega
  · rw [apply, startEq, stopEq, List.append_assoc]
    rfl

/-- Without the last edit, the others lie inside the text to which it has been applied. -/
theorem ascending_init {edits : List Edit} {edit : Edit} {text : Text}
    (ascending : Ascending text.length (edits ++ [edit])) : Ascending (apply text edit).length edits := by
  obtain ⟨positive, nonempty, within⟩ := ascending.proper edit (by simp)
  obtain ⟨left, middle, right, -, -, start, -, applied⟩ := exists_parts positive nonempty within
  obtain ⟨apart, -, before⟩ := List.pairwise_append.mp ascending.apart
  refine ⟨?_, apart⟩
  intro other member
  obtain ⟨otherPositive, otherNonempty, -⟩ := ascending.proper other (by simp [member])
  have order := before other member edit (by simp)
  refine ⟨otherPositive, otherNonempty, ?_⟩
  rw [applied, List.length_append]
  omega

theorem descending_reverse {edits : List Edit} {length : Nat} (ascending : Ascending length edits) :
    Descending length edits.reverse := by
  constructor
  · intro edit member
    have proper := ascending.proper edit (List.mem_reverse.mp member)
    omega
  · rw [List.pairwise_reverse]
    exact ascending.apart.imp Int.le_of_lt

theorem ordered_eq_reverse {edits : List Edit} {length : Nat} (ascending : Ascending length edits) :
    ordered edits = edits.reverse := by
  have strict : edits.Pairwise fun first second => first.start < second.start := by
    apply List.Pairwise.imp_of_mem _ ascending.apart
    intro first second inFirst inSecond apart
    have proper := ascending.proper first inFirst
    omega
  have different : (edits.map Edit.start).Nodup := List.pairwise_map.mpr (strict.imp fun less => Int.ne_of_lt less)
  refine List.Perm.eq_of_pairwise ?_ (ordered_pairwise edits) ?_ ((ordered_perm edits).trans edits.reverse_perm.symm)
  · intro first second inFirst inSecond notLess notGreater
    have firstMember : first ∈ edits := (ordered_perm edits).mem_iff.mp inFirst
    have secondMember : second ∈ edits := List.mem_reverse.mp inSecond
    exact List.inj_on_of_nodup_map different firstMember secondMember (Int.le_antisymm notGreater notLess)
  · rw [List.pairwise_reverse]
    exact strict.imp Int.le_of_lt

/-- The last edit is applied first. -/
theorem process_concat {edits : List Edit} {edit : Edit} {text : Text}
    (ascending : Ascending text.length (edits ++ [edit])) :
    process ⟨text, edits ++ [edit]⟩ = process ⟨apply text edit, edits⟩ := by
  simp only [process]
  rw [ordered_eq_reverse ascending, ordered_eq_reverse (ascending_init ascending), List.reverse_concat,
    List.foldl_cons]

/-! ### All edits at once -/

/-- Before its last edit a text is changed by the others, and behind it not at all. -/
theorem substitute_split {edits : List Edit} {edit : Edit} {text : Text}
    (ascending : Ascending text.length (edits ++ [edit])) :
    substitute (edits ++ [edit]) 0 text =
      substitute edits 0 (text.take edit.start.toNat) ++ (edit.text ++ text.drop edit.stop.toNat) := by
  obtain ⟨positive, nonempty, within⟩ := ascending.proper edit (by simp)
  obtain ⟨left, middle, right, rfl, middleNonempty, start, stop, -⟩ := exists_parts positive nonempty within
  obtain ⟨-, -, before⟩ := List.pairwise_append.mp ascending.apart
  have earlier : ∀ other ∈ edits, other.stop ≤ left.length := by
    intro other member
    have order := before other member edit (by simp)
    omega
  have beforeEdit : substitute (edits ++ [edit]) 0 left = substitute edits 0 left := by
    apply substitute_congr
    intro place after inside
    have uncovered : edit.covers place = false := by
      simp only [Edit.covers, Bool.and_eq_false_iff, decide_eq_false_iff_not]
      omega
    rw [List.find?_append, List.find?_singleton, uncovered]
    simp
  have insideEdit : substitute (edits ++ [edit]) (0 + left.length) middle = edit.text := by
    apply substitute_range middleNonempty _ (by omega)
    intro place after inside
    have covered : edit.covers place = true := by
      simp only [Edit.covers, Bool.and_eq_true, decide_eq_true_eq]
      omega
    have uncovered : (edits.find? fun other => other.covers place) = none := by
      rw [List.find?_eq_none]
      intro other member otherCovers
      have ended := earlier other member
      simp only [Edit.covers, Bool.and_eq_true, decide_eq_true_eq] at otherCovers
      omega
    rw [List.find?_append, uncovered, List.find?_singleton, covered]
    rfl
  have afterEdit : substitute (edits ++ [edit]) (0 + left.length + middle.length) right = right := by
    apply substitute_outside
    intro other member
    rcases List.mem_append.mp member with old | new
    · have ended := earlier other old
      omega
    · rw [List.mem_singleton.mp new]
      omega
  have front : (left ++ (middle ++ right)).take edit.start.toNat = left := by
    rw [start, Int.toNat_natCast, List.take_left]
  have back : (left ++ (middle ++ right)).drop edit.stop.toNat = right := by
    rw [stop, ← Int.natCast_add, Int.toNat_natCast, ← List.append_assoc, ← List.length_append, List.drop_left]
  rw [front, back, substitute_append, substitute_append, beforeEdit, insideEdit, afterEdit]

theorem substitute_eq_pieces {edits : List Edit} {text : Text} (ascending : Ascending text.length edits) :
    substitute edits 0 text = (piecesOf text edits.reverse).flatMap Piece.text := by
  induction edits using List.reverseRecOn generalizing text with
  | nil => rw [substitute_nil, List.reverse_nil, piecesOf, text_untouched_nil]
  | append_singleton edits edit ih =>
      have before : Ascending (text.take edit.start.toNat).length edits := by
        have descending := descending_reverse ascending
        rw [List.reverse_concat] at descending
        refine ⟨fun other member => ?_, (List.pairwise_append.mp ascending.apart).1⟩
        have proper := ascending.proper other (List.mem_append_left _ member)
        have inside := descending.tail.2.inside other (List.mem_reverse.mpr member)
        exact ⟨proper.1, proper.2.1, inside.2.2⟩
      rw [substitute_split ascending, ih before, List.reverse_concat, piecesOf, List.flatMap_append, List.flatMap_cons,
        text_untouched_nil]
      rfl

/-- Applying edits that lie apart from the last to the first is the same as applying them at once. -/
theorem process_eq_substitute {edits : List Edit} {text : Text} (ascending : Ascending text.length edits) :
    process ⟨text, edits⟩ = substitute edits 0 text := by
  rw [process, ordered_eq_reverse ascending, substitute_eq_pieces ascending,
    text_piecesOf (descending_reverse ascending)]

theorem substitute_concat {edits : List Edit} {edit : Edit} {text : Text}
    (ascending : Ascending text.length (edits ++ [edit])) :
    substitute (edits ++ [edit]) 0 text = substitute edits 0 (apply text edit) := by
  rw [← process_eq_substitute ascending, process_concat ascending, process_eq_substitute (ascending_init ascending)]

/-! ### Registration -/

/-- An edit that lies after all accepted ones is accepted. -/
theorem replace_of_ascending {edits : List Edit} {edit : Edit} {text : Text}
    (ascending : Ascending text.length (edits ++ [edit])) :
    replace ⟨text, edits⟩ edit = .ok ⟨text, edits ++ [edit]⟩ := by
  obtain ⟨positive, nonempty, within⟩ := ascending.proper edit (by simp)
  obtain ⟨-, -, before⟩ := List.pairwise_append.mp ascending.apart
  have inside : (!(decide (0 ≤ edit.start) && decide (edit.start ≤ edit.stop) &&
      decide (edit.stop ≤ text.length))) = false := by
    rw [decide_eq_true positive, decide_eq_true (by omega), decide_eq_true within]
    rfl
  have free : (edits.findSome? fun accepted => collision? edit accepted) = none := by
    rw [List.findSome?_eq_none_iff]
    intro accepted member
    have order := before accepted member edit (by simp)
    simp only [collision?, decide_eq_false (show ¬edit.start < accepted.stop by omega),
      decide_eq_false (show ¬edit.start = edit.stop by omega), Bool.false_and, Bool.false_eq_true, if_false]
  simp only [replace, inside, free]
  rfl

end EditBuffer

/-- Corrections of one edit each that lie apart are all accepted, in order. -/
theorem registerAll_of_ascending {content : Text} {violations : List Violation} {edits : List Edit}
    (corrections : violations.map Violation.correction = edits.map fun edit => some [edit])
    (ascending : Ascending content.length edits) :
    registerAll content violations = ⟨⟨content, edits⟩, edits.length, []⟩ := by
  -- the edits accepted so far and those still to come are all the edits
  have fold : ∀ (violations : List Violation) (accepted later : List Edit),
      violations.map Violation.correction = later.map (fun edit => some [edit]) →
      Ascending content.length (accepted ++ later) →
      violations.foldl Registered.add ⟨⟨content, accepted⟩, accepted.length, []⟩ =
        ⟨⟨content, accepted ++ later⟩, (accepted ++ later).length, []⟩ := by
    intro violations
    induction violations with
    | nil =>
        intro accepted later corrections ascending
        obtain rfl := List.map_eq_nil_iff.mp corrections.symm
        rw [List.append_nil]
        rfl
    | cons violation rest ih =>
        intro accepted later corrections ascending
        cases later with
        | nil => cases corrections
        | cons edit others =>
            obtain ⟨correction, corrections⟩ := List.cons.inj corrections
            have regrouped : accepted ++ edit :: others = (accepted ++ [edit]) ++ others := by simp
            rw [regrouped] at ascending ⊢
            have sofar : Ascending content.length (accepted ++ [edit]) :=
              ⟨fun other member => ascending.proper other (List.mem_append_left _ member),
                (List.pairwise_append.mp ascending.apart).1⟩
            have added : Registered.add ⟨⟨content, accepted⟩, accepted.length, []⟩ violation =
                ⟨⟨content, accepted ++ [edit]⟩, (accepted ++ [edit]).length, []⟩ := by
              simp only [Registered.add, correction, EditBuffer.register, EditBuffer.replace_of_ascending sofar,
                List.length_append, List.length_singleton]
            rw [List.foldl_cons, added]
            exact ih (accepted ++ [edit]) others corrections ascending
  exact fold violations [] edits corrections ascending

end AccessorLint
