import Mathlib
import AccessorLint.Proofs.Edits
import AccessorLint.Proofs.Lists
set_option autoImplicit false

/-!
Edits of one source together.

The edits that a buffer accepts lie apart, so they can be placed between the symbols that stay, one after the other.
Applying them from the last start to the first does this, as long as no insertion is registered before a replacement
that starts at the same place: the replacement would then take symbols of the inserted text.
-/

namespace AccessorLint

/-! ### Symbols that stay -/

theorem untouched_append (edits : List Edit) (offset : Nat) (left right : Text) :
    untouched edits offset (left ++ right) =
      untouched edits offset left ++ untouched edits (offset + left.length) right := by
  induction left generalizing offset with
  | nil => rfl
  | cons symbol rest ih =>
      have next : offset + 1 + rest.length = offset + (rest.length + 1) := by omega
      rw [List.cons_append, untouched, untouched, ih, List.length_cons, next]
      split
      · rfl
      · rfl

theorem untouched_congr {edits others : List Edit} {offset : Nat} {text : Text}
    (same : ∀ place, offset ≤ place → place < offset + text.length →
      (edits.any fun edit => edit.covers place) = others.any fun edit => edit.covers place) :
    untouched edits offset text = untouched others offset text := by
  induction text generalizing offset with
  | nil => rfl
  | cons symbol rest ih =>
      rw [List.length_cons] at same
      rw [untouched, untouched, same offset (Nat.le_refl _) (by omega),
        ih fun place after before => same place (by omega) (by omega)]

theorem untouched_perm {edits others : List Edit} (same : edits.Perm others) (offset : Nat) (text : Text) :
    untouched edits offset text = untouched others offset text := by
  apply untouched_congr
  intro place _ _
  exact same.any_eq

theorem untouched_covered {edits : List Edit} {offset : Nat} {text : Text}
    (covered : ∀ place, offset ≤ place → place < offset + text.length →
      (edits.any fun edit => edit.covers place) = true) :
    untouched edits offset text = [] := by
  induction text generalizing offset with
  | nil => rfl
  | cons symbol rest ih =>
      rw [List.length_cons] at covered
      rw [untouched, if_pos (covered offset (Nat.le_refl _) (by omega))]
      exact ih fun place after before => covered place (by omega) (by omega)

theorem untouched_bounds {edits : List Edit} {offset : Nat} {text : Text} {piece : Piece}
    (member : piece ∈ untouched edits offset text) : offset ≤ piece.start ∧ piece.stop ≤ offset + text.length := by
  induction text generalizing offset with
  | nil => cases member
  | cons symbol rest ih =>
      rw [untouched] at member
      rw [List.length_cons]
      split at member
      · have bounds := ih member
        omega
      · rcases List.mem_cons.mp member with rfl | later
        · change (offset : Int) ≤ offset ∧ (offset : Int) + 1 ≤ _
          omega
        · have bounds := ih later
          omega

theorem untouched_pairwise (edits : List Edit) (offset : Nat) (text : Text) :
    (untouched edits offset text).Pairwise fun first second => first.stop ≤ second.start := by
  induction text generalizing offset with
  | nil => exact List.Pairwise.nil
  | cons symbol rest ih =>
      rw [untouched]
      split
      · exact ih (offset + 1)
      · apply List.Pairwise.cons
        · intro piece later
          exact (untouched_bounds later).1
        · exact ih (offset + 1)

namespace EditBuffer

/-! ### Accepted edits -/

/-- Whether two edits can stand together. -/
structure Apart (one other : Edit) : Prop where
  ranges : ¬(one.start < other.stop ∧ other.start < one.stop)
  points : ¬(one.start = one.stop ∧ one.stop = other.start ∧ other.start = other.stop)

theorem Apart.symm {one other : Edit} (apart : Apart one other) : Apart other one := by
  obtain ⟨ranges, points⟩ := apart
  constructor
  · omega
  · omega

instance : Std.Symm Apart :=
  ⟨fun _ _ => Apart.symm⟩

theorem collision?_eq_none {edit accepted : Edit} : collision? edit accepted = none ↔ Apart edit accepted := by
  unfold collision?
  constructor
  · intro free
    split at free
    · cases free
    · rename_i ranges
      split at free
      · cases free
      · rename_i points
        simp only [Bool.and_eq_true, decide_eq_true_eq] at ranges points
        constructor
        · exact ranges
        · intro same
          exact points ⟨⟨same.1, same.2.1⟩, same.2.2⟩
  · rintro ⟨ranges, points⟩
    rw [if_neg, if_neg]
    · simp only [Bool.and_eq_true, decide_eq_true_eq]
      intro same
      exact points ⟨same.1.1, same.1.2, same.2⟩
    · simp only [Bool.and_eq_true, decide_eq_true_eq]
      exact ranges

/-- Whether the edits of a source of a length lie inside it and apart from each other. -/
structure WellPlaced (length : Nat) (edits : List Edit) : Prop where
  inside : ∀ edit ∈ edits, 0 ≤ edit.start ∧ edit.start ≤ edit.stop ∧ edit.stop ≤ length
  apart : edits.Pairwise Apart

theorem WellPlaced.perm {length : Nat} {edits others : List Edit} (placed : WellPlaced length edits)
    (same : others.Perm edits) : WellPlaced length others := by
  constructor
  · intro edit member
    exact placed.inside edit (same.mem_iff.mp member)
  · exact (same.pairwise_iff fun apart => apart.symm).mpr placed.apart

theorem WellPlaced.concat_iff {length : Nat} {edits : List Edit} {edit : Edit} :
    WellPlaced length (edits ++ [edit]) ↔
      WellPlaced length edits ∧ (0 ≤ edit.start ∧ edit.start ≤ edit.stop ∧ edit.stop ≤ length) ∧
        ∀ accepted ∈ edits, Apart edit accepted := by
  constructor
  · rintro ⟨inside, apart⟩
    rw [List.pairwise_append] at apart
    refine ⟨⟨?_, apart.1⟩, inside edit (by simp), ?_⟩
    · intro other member
      exact inside other (List.mem_append_left _ member)
    · intro accepted member
      exact (apart.2.2 accepted member edit (by simp)).symm
  · rintro ⟨⟨inside, apart⟩, here, free⟩
    constructor
    · intro other member
      rcases List.mem_append.mp member with old | new
      · exact inside other old
      · rw [List.mem_singleton.mp new]
        exact here
    · rw [List.pairwise_append]
      refine ⟨apart, List.pairwise_singleton _ _, ?_⟩
      intro accepted member new isNew
      rw [List.mem_singleton.mp isNew]
      exact (free accepted member).symm

/-- An edit is accepted exactly if it can stand together with the accepted ones. -/
theorem replace_eq (buffer : EditBuffer) (edit : Edit) (placed : WellPlaced buffer.source.length buffer.edits) :
    (WellPlaced buffer.source.length (buffer.edits ++ [edit]) ∧
        buffer.replace edit = .ok ⟨buffer.source, buffer.edits ++ [edit]⟩) ∨
      (¬WellPlaced buffer.source.length (buffer.edits ++ [edit]) ∧ ∃ reason, buffer.replace edit = .error reason) := by
  unfold replace
  rw [WellPlaced.concat_iff]
  by_cases inside : 0 ≤ edit.start ∧ edit.start ≤ edit.stop ∧ edit.stop ≤ buffer.source.length
  · rw [if_neg (by simp [inside])]
    cases found : buffer.edits.findSome? fun accepted => collision? edit accepted with
    | none =>
        rw [List.findSome?_eq_none_iff] at found
        exact Or.inl ⟨⟨placed, inside, fun accepted member => collision?_eq_none.mp (found accepted member)⟩, rfl⟩
    | some clobbering =>
        apply Or.inr
        refine ⟨?_, clobbering, rfl⟩
        rintro ⟨-, -, free⟩
        obtain ⟨accepted, member, collides⟩ := List.exists_of_findSome?_eq_some found
        rw [collision?_eq_none.mpr (free accepted member)] at collides
        cases collides
  · rw [if_pos]
    · exact Or.inr ⟨fun all => inside all.2.1, _, rfl⟩
    · rw [Bool.not_eq_true', Bool.eq_false_iff]
      intro all
      simp only [Bool.and_eq_true, decide_eq_true_eq] at all
      exact inside ⟨all.1.1, all.1.2, all.2⟩

/-- The buffer after an edit has been asked for, whether it was accepted or refused. -/
def offer (buffer : EditBuffer) (edit : Edit) : EditBuffer :=
  match buffer.replace edit with
  | .ok longer => longer
  | .error _ => buffer

/-- The buffer of a source after edits have been asked for, one after the other. -/
def offered (source : Text) (edits : List Edit) : EditBuffer :=
  edits.foldl offer (.ofSource source)

theorem offer_wellPlaced {buffer : EditBuffer} (placed : WellPlaced buffer.source.length buffer.edits) (edit : Edit) :
    (buffer.offer edit).source = buffer.source ∧
      WellPlaced buffer.source.length (buffer.offer edit).edits := by
  unfold offer
  rcases buffer.replace_eq edit placed with ⟨longer, accepted⟩ | ⟨-, reason, refused⟩
  · rw [accepted]
    exact ⟨rfl, longer⟩
  · rw [refused]
    exact ⟨rfl, placed⟩

theorem offered_wellPlaced (source : Text) (edits : List Edit) :
    (offered source edits).source = source ∧ WellPlaced source.length (offered source edits).edits := by
  rw [offered]
  induction edits using List.reverseRecOn with
  | nil => exact ⟨rfl, ⟨fun edit member => (List.not_mem_nil member).elim, List.Pairwise.nil⟩⟩
  | append_singleton edits edit ih =>
      obtain ⟨same, placed⟩ := ih
      rw [List.foldl_append]
      have next := @offer_wellPlaced (edits.foldl offer (.ofSource source)) (by rwa [same]) edit
      rw [same] at next
      exact next

/-- Edits that can stand together are all accepted. -/
theorem offered_of_wellPlaced {source : Text} {edits : List Edit} (placed : WellPlaced source.length edits) :
    offered source edits = ⟨source, edits⟩ := by
  induction edits using List.reverseRecOn with
  | nil => rfl
  | append_singleton edits edit ih =>
      have fewer := (WellPlaced.concat_iff.mp placed).1
      have before := ih fewer
      rw [offered] at before ⊢
      rw [List.foldl_append, before, List.foldl_cons, List.foldl_nil, offer]
      rcases replace_eq ⟨source, edits⟩ edit fewer with ⟨-, accepted⟩ | ⟨refused, -⟩
      · rw [accepted]
      · exact absurd placed refused

/-! ### The order of application -/

/-- Whether no insertion is registered before a replacement that starts at the same place. -/
def InsertionsLast (edits : List Edit) : Prop :=
  edits.Pairwise fun first second => first.start = second.start → first.start < first.stop

instance (edits : List Edit) : Decidable (InsertionsLast edits) :=
  inferInstanceAs (Decidable (edits.Pairwise fun first second => first.start = second.start → first.start < first.stop))

/-- Edits with one start stay in the order of their registration. -/
theorem ordered_filter (edits : List Edit) (place : Int) :
    (ordered edits).filter (fun edit => edit.start = place) = edits.filter fun edit => edit.start = place := by
  refine mergeSort_filter start_trans start_total ?_ edits
  intro left right isLeft isRight
  rw [of_decide_eq_true isLeft, of_decide_eq_true isRight]
  exact decide_eq_true le_rfl

theorem ordered_descending {length : Nat} {edits : List Edit} (placed : WellPlaced length edits)
    (insertionsLast : InsertionsLast edits) : Descending length (ordered edits) := by
  have orderedPlaced := placed.perm (ordered_perm edits)
  refine ⟨orderedPlaced.inside, List.pairwise_iff_forall_sublist.mpr ?_⟩
  intro later earlier sublist
  have order := List.pairwise_iff_forall_sublist.mp (ordered_pairwise edits) sublist
  have apart := (List.pairwise_iff_forall_sublist.mp orderedPlaced.apart sublist).ranges
  have laterInside := orderedPlaced.inside later (sublist.subset (by simp))
  have earlierInside := orderedPlaced.inside earlier (sublist.subset (by simp))
  by_cases same : later.start = earlier.start
  · -- the order of registration decides, so the one applied first replaces something
    have kept := sublist.filter fun edit => edit.start = later.start
    rw [ordered_filter] at kept
    simp only [same, decide_true, List.filter_cons_of_pos, List.filter_nil] at kept
    have registered := kept.trans List.filter_sublist
    have nonempty := List.pairwise_iff_forall_sublist.mp insertionsLast registered same
    omega
  · omega

/-- The order of registration does not matter where it puts no insertion before a replacement at its place. -/
theorem ordered_eq_of_perm {length : Nat} {edits others : List Edit} (placed : WellPlaced length edits)
    (insertionsLast : InsertionsLast edits) (otherLast : InsertionsLast others) (same : others.Perm edits) :
    ordered others = ordered edits := by
  refine List.Perm.eq_of_pairwise ?_ (ordered_descending (placed.perm same) otherLast).order
    (ordered_descending placed insertionsLast).order (((ordered_perm others).trans same).trans (ordered_perm edits).symm)
  intro one other isOne isOther oneFirst otherFirst
  have oneMember : one ∈ edits := ((ordered_perm others).trans same).mem_iff.mp isOne
  have otherMember : other ∈ edits := (ordered_perm edits).mem_iff.mp isOther
  have oneInside := placed.inside one oneMember
  have otherInside := placed.inside other otherMember
  by_contra different
  have apart := placed.apart.forall oneMember otherMember different
  exact apart.points (by omega)

/-! ### Application -/

theorem piecesOf_stop {source : Text} {edits : List Edit} (descending : Descending source.length edits)
    {piece : Piece} (member : piece ∈ piecesOf source edits) : piece.stop ≤ source.length := by
  induction edits generalizing source with
  | nil =>
      have bounds := untouched_bounds member
      omega
  | cons edit rest ih =>
      obtain ⟨size, before⟩ := descending.tail
      have inside := descending.inside edit List.mem_cons_self
      rcases List.mem_append.mp member with left | here
      · have bound := ih before left
        omega
      · rcases List.mem_cons.mp here with rfl | right
        · exact inside.2.2
        · have bounds := untouched_bounds right
          rw [List.length_drop] at bounds
          omega

theorem piecesOf_pairwise {source : Text} {edits : List Edit} (descending : Descending source.length edits) :
    (piecesOf source edits).Pairwise fun first second => first.stop ≤ second.start := by
  induction edits generalizing source with
  | nil => exact untouched_pairwise [] 0 source
  | cons edit rest ih =>
      obtain ⟨size, before⟩ := descending.tail
      have inside := descending.inside edit List.mem_cons_self
      have behind : ∀ piece ∈ untouched [] edit.stop.toNat (source.drop edit.stop.toNat),
          edit.stop ≤ piece.start := by
        intro piece member
        have bounds := untouched_bounds member
        omega
      rw [piecesOf, List.pairwise_append, List.pairwise_cons]
      refine ⟨ih before, ⟨behind, untouched_pairwise _ _ _⟩, ?_⟩
      intro left isLeft right isRight
      have bound := piecesOf_stop before isLeft
      rcases List.mem_cons.mp isRight with rfl | later
      · change left.stop ≤ edit.start
        omega
      · have bounds := behind right later
        omega

/-- The symbols that stay are those that stay before the last edit and all behind it. -/
theorem untouched_cons {source : Text} {edit : Edit} {rest : List Edit}
    (descending : Descending source.length (edit :: rest)) :
    untouched (edit :: rest) 0 source =
      untouched rest 0 (source.take edit.start.toNat) ++
        untouched [] edit.stop.toNat (source.drop edit.stop.toNat) := by
  obtain ⟨size, restBefore⟩ := descending.tail
  have inside := descending.inside edit List.mem_cons_self
  have middleSize : ((source.drop edit.start.toNat).take (edit.stop.toNat - edit.start.toNat)).length =
      edit.stop.toNat - edit.start.toNat := by
    rw [List.length_take, List.length_drop]
    omega
  have parts : source = source.take edit.start.toNat ++
      ((source.drop edit.start.toNat).take (edit.stop.toNat - edit.start.toNat) ++ source.drop edit.stop.toNat) := by
    have behind : source.drop edit.stop.toNat =
        (source.drop edit.start.toNat).drop (edit.stop.toNat - edit.start.toNat) := by
      rw [List.drop_drop]
      congr 1
      omega
    rw [behind, List.take_append_drop, List.take_append_drop]
  have before : untouched (edit :: rest) 0 (source.take edit.start.toNat) =
      untouched rest 0 (source.take edit.start.toNat) := by
    apply untouched_congr
    intro place _ inFront
    have uncovered : edit.covers place = false := by
      simp only [Edit.covers, Bool.and_eq_false_iff, decide_eq_false_iff_not]
      omega
    rw [List.any_cons, uncovered, Bool.false_or]
  have middle : untouched (edit :: rest) edit.start.toNat
      ((source.drop edit.start.toNat).take (edit.stop.toNat - edit.start.toNat)) = [] := by
    apply untouched_covered
    intro place begun notEnded
    have covered : edit.covers place = true := by
      simp only [Edit.covers, Bool.and_eq_true, decide_eq_true_eq]
      omega
    rw [List.any_cons, covered, Bool.true_or]
  have behind : untouched (edit :: rest) edit.stop.toNat (source.drop edit.stop.toNat) =
      untouched [] edit.stop.toNat (source.drop edit.stop.toNat) := by
    apply untouched_congr
    intro place ended _
    rw [List.any_nil, List.any_eq_false]
    intro other member
    simp only [Edit.covers, Bool.and_eq_true, decide_eq_true_eq]
    rcases List.mem_cons.mp member with rfl | earlier
    · omega
    · have bound := restBefore.inside other earlier
      omega
  have places : 0 + edit.start.toNat + (edit.stop.toNat - edit.start.toNat) = edit.stop.toNat := by omega
  conv_lhs => rw [parts, untouched_append, untouched_append, size, middleSize, places, Nat.zero_add]
  rw [before, middle, behind, List.nil_append]

theorem piecesOf_perm {source : Text} {edits : List Edit} (descending : Descending source.length edits) :
    (piecesOf source edits).Perm (untouched edits 0 source ++ edits.map .placed) := by
  induction edits generalizing source with
  | nil =>
      rw [List.map_nil, List.append_nil]
      exact List.Perm.refl _
  | cons edit rest ih =>
      rw [piecesOf, untouched_cons descending, List.map_cons]
      generalize untouched [] edit.stop.toNat (source.drop edit.stop.toNat) = behind
      have before := (ih descending.tail.2).append_right (.placed edit :: behind)
      have swapped : (rest.map Piece.placed ++ .placed edit :: behind).Perm
          (behind ++ .placed edit :: rest.map Piece.placed) :=
        List.perm_middle.trans ((List.perm_append_comm.cons _).trans List.perm_middle.symm)
      rw [List.append_assoc] at before ⊢
      exact before.trans (swapped.append_left _)

end EditBuffer

open EditBuffer (offered InsertionsLast)

/-- Edits that a buffer accepts are applied as if all at once, if no insertion is registered before a replacement that
starts at the same place.  The result consists of the symbols that no accepted edit covers and the accepted texts, all
of them once, each after what stands before it in the source.  The accepted edits are accepted in any order, and all
such orders give the same result. -/
theorem accepted_edits_apply_at_once (source : Text) (calls : List Edit)
    (insertionsLast : InsertionsLast (offered source calls).edits) :
    let accepted := (offered source calls).edits
    (∃ pieces : List Piece,
      pieces.Perm (untouched accepted 0 source ++ accepted.map .placed) ∧
        pieces.Pairwise (fun first second => first.stop ≤ second.start) ∧
        (offered source calls).process = pieces.flatMap Piece.text) ∧
      ∀ order : List Edit, order.Perm accepted →
        offered source order = ⟨source, order⟩ ∧
          (InsertionsLast order → (offered source order).process = (offered source calls).process) := by
  obtain ⟨same, placed⟩ := EditBuffer.offered_wellPlaced source calls
  have descending := EditBuffer.ordered_descending placed insertionsLast
  constructor
  · refine ⟨EditBuffer.piecesOf source (EditBuffer.ordered (offered source calls).edits), ?_,
      EditBuffer.piecesOf_pairwise descending, ?_⟩
    · have byOrder := EditBuffer.ordered_perm (offered source calls).edits
      rw [← untouched_perm byOrder]
      exact (EditBuffer.piecesOf_perm descending).trans ((byOrder.map _).append_left _)
    · rw [EditBuffer.text_piecesOf descending, EditBuffer.process, same]
  · intro order permuted
    have accepted := EditBuffer.offered_of_wellPlaced (placed.perm permuted)
    refine ⟨accepted, ?_⟩
    intro orderLast
    rw [accepted, EditBuffer.process, EditBuffer.process, same,
      EditBuffer.ordered_eq_of_perm placed insertionsLast orderLast permuted]

/-- An insertion at the start of a replacement stands before its text, whichever other edits come first. -/
theorem insertion_stands_before_replacement :
    let calls : List Edit := [⟨1, 3, "X"⟩, ⟨2, 4, "no"⟩, ⟨1, 1, "yy"⟩, ⟨3, 3, "z"⟩]
    let order : List Edit := [⟨3, 3, "z"⟩, ⟨1, 3, "X"⟩, ⟨1, 1, "yy"⟩]
    InsertionsLast (offered "abcdef" calls).edits ∧ InsertionsLast order ∧
      order.Perm (offered "abcdef" calls).edits ∧
      (offered "abcdef" order).process = Text.ofString "ayyXzdef" ∧
      (offered "abcdef" calls).process = Text.ofString "ayyXzdef" := by
  intro calls order
  have insertionsLast : InsertionsLast (offered "abcdef" calls).edits := by decide +kernel
  have orderLast : InsertionsLast order := by decide +kernel
  have permuted : order.Perm (offered "abcdef" calls).edits := by decide +kernel
  obtain ⟨-, orders⟩ := accepted_edits_apply_at_once "abcdef" calls insertionsLast
  obtain ⟨accepted, sameResult⟩ := orders order permuted
  have result : (offered "abcdef" order).process = Text.ofString "ayyXzdef" := by
    rw [accepted, EditBuffer.process, EditBuffer.ordered_of_pairwise (by decide +kernel)]
    decide +kernel
  exact ⟨insertionsLast, orderLast, permuted, result, (sameResult orderLast).symm.trans result⟩

/-- A replacement registered after an insertion at its start takes symbols of the inserted text and leaves its own. -/
theorem replacement_takes_inserted_text :
    let insertion : Edit := ⟨1, 1, "XY"⟩
    let replacement : Edit := ⟨1, 2, "Z"⟩
    (offered "abc" [insertion, replacement]).edits = [insertion, replacement] ∧
      (offered "abc" [insertion, replacement]).process = Text.ofString "aZYbc" ∧
      (offered "abc" [replacement, insertion]).edits = [replacement, insertion] ∧
      (offered "abc" [replacement, insertion]).process = Text.ofString "aXYZc" := by
  intro insertion replacement
  have insertionFirst : offered "abc" [insertion, replacement] = ⟨"abc", [insertion, replacement]⟩ := by
    decide +kernel
  have replacementFirst : offered "abc" [replacement, insertion] = ⟨"abc", [replacement, insertion]⟩ := by
    decide +kernel
  rw [insertionFirst, replacementFirst, EditBuffer.process, EditBuffer.process,
    EditBuffer.ordered_of_pairwise (by decide), EditBuffer.ordered_of_pairwise (by decide)]
  decide +kernel

end AccessorLint
