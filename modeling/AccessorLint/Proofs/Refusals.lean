import Mathlib
import AccessorLint.Proofs.Composition
set_option autoImplicit false

/-!
Which edits a buffer refuses.

The buffer compares the ends of ranges, and a range may be empty.  What the comparison tells is said here by the symbols
that ranges cover and by the points at which texts are inserted.  A refused edit leaves no trace.
-/

namespace AccessorLint

namespace Edit

/-- Whether the range of an edit is one of a source of a length. -/
def IsInside (length : Nat) (edit : Edit) : Prop :=
  0 ≤ edit.start ∧ edit.start ≤ edit.stop ∧ edit.stop ≤ length

/-- Whether two edits cover a symbol of a source of a length together. -/
def ShareSymbol (length : Nat) (edit other : Edit) : Prop :=
  ∃ offset, offset < length ∧ edit.covers offset = true ∧ other.covers offset = true

/-- The ways in which an edit meets another one. -/
inductive Meets (length : Nat) (edit other : Edit) : Prop where
  | symbol (shared : ShareSymbol length edit other)
  | pointInside (point : edit.start = edit.stop) (after : other.start < edit.start) (before : edit.start < other.stop)
  | aroundPoint (point : other.start = other.stop) (after : edit.start < other.start) (before : other.start < edit.stop)
  | samePoint (point : edit.start = edit.stop) (otherPoint : other.start = other.stop) (same : edit.start = other.start)

variable {length : Nat} {edit other : Edit}

theorem covers_iff (edit : Edit) (offset : Nat) :
    edit.covers offset = true ↔ edit.start ≤ offset ∧ (offset : Int) < edit.stop := by
  simp only [covers, Bool.and_eq_true, decide_eq_true_eq]

theorem not_apart_of_shareSymbol (shared : ShareSymbol length edit other) : ¬EditBuffer.Apart edit other := by
  intro apart
  obtain ⟨offset, -, covered, alsoCovered⟩ := shared
  rw [covers_iff] at covered alsoCovered
  have ranges := apart.ranges
  omega

theorem not_apart_of_meets (meets : Meets length edit other) : ¬EditBuffer.Apart edit other := by
  cases meets with
  | symbol shared => exact not_apart_of_shareSymbol shared
  | pointInside point after before =>
      intro apart
      have ranges := apart.ranges
      omega
  | aroundPoint point after before =>
      intro apart
      have ranges := apart.ranges
      omega
  | samePoint point otherPoint same =>
      intro apart
      have points := apart.points
      omega

/-- The comparison of the ends tells all the ways in which two ranges of the source meet. -/
theorem meets_iff (inside : edit.IsInside length) (otherInside : other.IsInside length) :
    Meets length edit other ↔ ¬EditBuffer.Apart edit other := by
  refine ⟨not_apart_of_meets, ?_⟩
  intro together
  obtain ⟨positive, forward, within⟩ := inside
  obtain ⟨otherPositive, otherForward, otherWithin⟩ := otherInside
  by_cases points : edit.start = edit.stop ∧ edit.stop = other.start ∧ other.start = other.stop
  · exact .samePoint points.1 points.2.2 (points.1.trans points.2.1)
  have ranges : edit.start < other.stop ∧ other.start < edit.stop := by
    by_contra separate
    exact together ⟨separate, points⟩
  by_cases point : edit.start = edit.stop
  · exact .pointInside point (by omega) ranges.1
  by_cases otherPoint : other.start = other.stop
  · exact .aroundPoint otherPoint (by omega) ranges.2
  -- the later of the two starts is covered by both
  refine .symbol ⟨(max edit.start other.start).toNat, by omega, ?_, ?_⟩
  · rw [covers_iff]
    omega
  · rw [covers_iff]
    omega

end Edit

namespace EditBuffer

open Edit (IsInside Meets ShareSymbol)

variable {buffer : EditBuffer} {edit : Edit}

theorem refuses_iff (edit : Edit) (placed : WellPlaced buffer.source.length buffer.edits) :
    (∃ reason, buffer.replace edit = .error reason) ↔
      ¬edit.IsInside buffer.source.length ∨ ∃ accepted ∈ buffer.edits, edit.Meets buffer.source.length accepted := by
  have wellPlaced : WellPlaced buffer.source.length (buffer.edits ++ [edit]) ↔
      ¬(¬edit.IsInside buffer.source.length ∨
        ∃ accepted ∈ buffer.edits, edit.Meets buffer.source.length accepted) := by
    rw [WellPlaced.concat_iff, not_or, not_not]
    constructor
    · rintro ⟨-, inside, free⟩
      refine ⟨inside, ?_⟩
      rintro ⟨accepted, member, meets⟩
      exact Edit.not_apart_of_meets meets (free accepted member)
    · rintro ⟨inside, none⟩
      refine ⟨placed, inside, ?_⟩
      intro accepted member
      by_contra together
      exact none ⟨accepted, member, (Edit.meets_iff inside (placed.inside accepted member)).mpr together⟩
  rcases buffer.replace_eq edit placed with ⟨longer, accepted⟩ | ⟨refused, reason, failed⟩
  · refine iff_of_false ?_ (wellPlaced.mp longer)
    rintro ⟨reason, failed⟩
    rw [accepted] at failed
    cases failed
  · exact iff_of_true ⟨reason, failed⟩ (not_not.mp (mt wellPlaced.mpr refused))

theorem offer_of_refused {reason : Clobbering} (refused : buffer.replace edit = .error reason) :
    buffer.offer edit = buffer := by
  rw [offer, refused]

theorem offer_of_accepted {longer : EditBuffer} (accepted : buffer.replace edit = .ok longer)
    (placed : WellPlaced buffer.source.length buffer.edits) :
    buffer.offer edit = ⟨buffer.source, buffer.edits ++ [edit]⟩ := by
  rcases buffer.replace_eq edit placed with ⟨-, appended⟩ | ⟨-, reason, failed⟩
  · rw [offer, appended]
  · rw [failed] at accepted
    cases accepted

/-- A refused edit might as well not have been asked for, whatever is asked for later. -/
theorem offered_of_refused {source : Text} {calls : List Edit} {reason : Clobbering}
    (refused : (offered source calls).replace edit = .error reason) (later : List Edit) :
    offered source (calls ++ edit :: later) = offered source (calls ++ later) := by
  rw [offered] at refused
  rw [offered, offered, List.foldl_append, List.foldl_append, List.foldl_cons, offer_of_refused refused]

end EditBuffer

open EditBuffer (offered)

/-- After any edits have been asked for, a further one is refused exactly if its range is not one of the source or it
meets an accepted edit.  A refused edit changes neither what is accepted nor the text that it makes, an accepted one is
added to the others, and all that is accepted lies in the source and covers no symbol of it twice. -/
theorem edits_refused_exactly_if_they_meet (source : Text) (calls : List Edit) (edit : Edit) :
    let buffer := offered source calls
    ((∃ reason, buffer.replace edit = .error reason) ↔
        ¬edit.IsInside source.length ∨ ∃ accepted ∈ buffer.edits, edit.Meets source.length accepted) ∧
      (∀ reason, buffer.replace edit = .error reason →
        (offered source (calls ++ [edit])).edits = buffer.edits ∧
          (offered source (calls ++ [edit])).process = buffer.process ∧
          ∀ later, offered source (calls ++ edit :: later) = offered source (calls ++ later)) ∧
      (∀ longer, buffer.replace edit = .ok longer →
        (offered source (calls ++ [edit])).edits = buffer.edits ++ [edit]) ∧
      (∀ accepted ∈ buffer.edits, accepted.IsInside source.length) ∧
      buffer.edits.Pairwise fun one other => ¬one.ShareSymbol source.length other := by
  intro buffer
  obtain ⟨same, placed⟩ := EditBuffer.offered_wellPlaced source calls
  have placedHere : EditBuffer.WellPlaced buffer.source.length buffer.edits := by
    rw [same]
    exact placed
  refine ⟨?_, ?_, ?_, placed.inside, ?_⟩
  · have refuses := EditBuffer.refuses_iff edit placedHere
    rw [same] at refuses
    exact refuses
  · intro reason refused
    have gone := EditBuffer.offered_of_refused refused
    refine ⟨?_, ?_, gone⟩
    · rw [gone [], List.append_nil]
    · rw [gone [], List.append_nil]
  · intro longer accepted
    have added := EditBuffer.offer_of_accepted accepted placedHere
    rw [offered, List.foldl_append, List.foldl_cons, List.foldl_nil]
    exact congrArg EditBuffer.edits added
  · exact placed.apart.imp fun apart shared => Edit.not_apart_of_shareSymbol shared apart

end AccessorLint
