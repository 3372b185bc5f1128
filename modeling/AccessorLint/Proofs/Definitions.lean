import Mathlib
import AccessorLint.Source.Declaration
import AccessorLint.Proofs.Header
import AccessorLint.Proofs.PlainCode
set_option autoImplicit false

/-!
Where method definitions stand.

A definition is found at each place of the code where a head is read after `def`.  The names of two definitions do
not meet: between `def` and the end of a name no other definition starts.  A name that is a word stands in the text
itself, as a whole word, and not only in the copy that shows the code.
-/

namespace AccessorLint.Source

open AccessorLint.Symbol (newline)
open AccessorLint.Text (firstLine)

theorem Lead.isPlain {receiver : Option Text} {lead : Text} (isLead : Lead receiver lead) {symbol : Symbol}
    (member : symbol ∈ lead) : isPlain symbol = true := by
  rcases isLead.symbols symbol member with gap | part | rfl
  · exact isPlain_of_isGap gap
  · rcases Bool.or_eq_true_iff.mp part with word | colon
    · exact isPlain_of_isWord word
    · rw [of_decide_eq_true colon]
      decide
  · decide

namespace Definition

/-! ### Places of definitions -/

theorem mem_within {definition : Definition} {behind text : Text} :
    definition ∈ Definition.within behind text ↔
      ∃ left right, text = left ++ right ∧ at? (left.reverse ++ behind) right = some definition := by
  induction text generalizing behind with
  | nil =>
      constructor
      · intro member
        cases member
      · rintro ⟨left, right, same, found⟩
        obtain ⟨-, rfl⟩ := List.append_eq_nil_iff.mp same.symm
        cases found
  | cons symbol rest ih =>
      rw [Definition.within, List.mem_append, Option.mem_toList, ih]
      constructor
      · rintro (here | ⟨left, right, rfl, found⟩)
        · exact ⟨[], symbol :: rest, rfl, here⟩
        · exact ⟨symbol :: left, right, rfl, by simpa using found⟩
      · rintro ⟨left, right, same, found⟩
        cases left with
        | nil =>
            rw [List.nil_append] at same
            rw [← same] at found
            exact Or.inl found
        | cons first others =>
            obtain ⟨rfl, rfl⟩ := List.cons.inj same
            exact Or.inr ⟨others, right, rfl, by simpa using found⟩

theorem mem_all {definition : Definition} {code : Text} :
    definition ∈ all code ↔ ∃ left right, code = left ++ right ∧ at? left.reverse right = some definition := by
  simp only [all, mem_within, List.append_nil]

theorem at?_start {definition : Definition} {behind ahead : Text} (found : at? behind ahead = some definition) :
    definition.start = behind.length := by
  rw [at?] at found
  split at found
  · obtain ⟨header, -, rfl⟩ := Option.map_eq_some_iff.mp found
    rfl
  · cases found

theorem within_pairwise (behind text : Text) :
    (Definition.within behind text).Pairwise fun first second => first.start < second.start := by
  induction text generalizing behind with
  | nil => exact List.Pairwise.nil
  | cons symbol rest ih =>
      rw [Definition.within, List.pairwise_append]
      refine ⟨?_, ih _, ?_⟩
      · cases at? behind (symbol :: rest) with
        | none => exact List.Pairwise.nil
        | some definition => exact List.pairwise_singleton _ _
      · intro first here second later
        obtain ⟨left, right, -, found⟩ := mem_within.mp later
        rw [at?_start (Option.mem_toList.mp here), at?_start found, List.length_append, List.length_cons]
        omega

/-- The definitions come in the order of their places. -/
theorem all_pairwise (code : Text) : (all code).Pairwise fun first second => first.start < second.start :=
  within_pairwise [] code

/-! ### How definitions are written -/

/-- What stands in the code at a definition: something to its left, `def`, a lead, the name and the rest. -/
structure Stands (definition : Definition) (code left lead rest : Text) : Prop where
  code : code = left ++ ("def" ++ (lead ++ (definition.header.name ++ rest)))
  found : at? left.reverse ("def" ++ (lead ++ (definition.header.name ++ rest))) = some definition
  isLead : Lead definition.header.receiver lead
  nonempty : definition.header.name ≠ []
  named : nameLength (definition.header.name ++ rest) = definition.header.name.length
  start : definition.start = left.length
  nameBegin : definition.header.nameBegin = (left ++ ("def" ++ lead)).length
  nameEnd : definition.header.nameEnd = (left ++ ("def" ++ (lead ++ definition.header.name))).length

theorem exists_stands {definition : Definition} {code : Text} (member : definition ∈ all code) :
    ∃ left lead rest, definition.Stands code left lead rest := by
  obtain ⟨left, right, rfl, found⟩ := mem_all.mp member
  have placed := found
  rw [at?] at found
  split at found
  · obtain ⟨header, read, same⟩ := Option.map_eq_some_iff.mp found
    obtain ⟨lead, name, rest, rfl, isLead, nonempty, named, headerEq, -⟩ := Header.read?_sound read
    have nameEq : definition.header.name = name := by
      rw [← same, headerEq]
      rfl
    subst nameEq
    refine ⟨left, lead, rest, rfl, placed, ?_, nonempty, named, ?_, ?_, ?_⟩
    · rw [← same]
      exact isLead
    · rw [at?_start placed, List.length_reverse]
    · rw [← same, headerEq]
      simp only [Header.written, Header.shift, List.length_reverse, List.length_append]
      change _ = left.length + (3 + lead.length)
      omega
    · rw [← same, headerEq]
      simp only [Header.written, Header.shift, List.length_reverse, List.length_append]
      change _ = left.length + (3 + (lead.length + _))
      omega
  · cases found

/-! ### Names do not meet -/

theorem at?_of_no_head {behind ahead : Text} (none : Header.read? ahead = none) : at? behind ahead = .none := by
  rw [at?, none]
  split <;> rfl

theorem at?_of_word {behind ahead : Text} (word : behind.head?.any Symbol.isWord = true) :
    at? behind ahead = none := by
  rw [at?, word]
  simp

/-- Between a `def` and the end of an ordinary name no other definition starts. -/
theorem at?_inside {receiver : Option Text} {lead name rest left right : Text} (isLead : Lead receiver lead)
    (ordinary : Ordinary name) (named : nameLength (name ++ rest) = name.length)
    (split : "def" ++ (lead ++ name) = left ++ right) (after : left ≠ []) (before : right ≠ []) (behind : Text) :
    at? (left.reverse ++ behind) (right ++ rest) = none := by
  rw [← List.append_assoc] at split
  rcases List.append_eq_append_iff.mp split with ⟨front, leftEq, nameEq⟩ | ⟨back, leadEq, rightEq⟩
  · -- inside the name
    by_cases first : front = []
    · rw [first, List.nil_append] at nameEq
      rw [← nameEq]
      exact at?_of_no_head (ordinary.no_head named)
    · obtain ⟨others, last, rfl⟩ := (List.eq_nil_or_concat' front).resolve_left first
      have word := ordinary.words nameEq before last (by simp)
      apply at?_of_word
      simp [leftEq, word]
  · -- before the name
    subst rightEq
    by_cases last : back = []
    · subst last
      exact at?_of_no_head (ordinary.no_head named)
    · rw [List.append_assoc]
      exact at?_of_no_head (isLead.no_head leadEq after last (name ++ rest))

/-- A definition does not start inside a stretch in which none can start. -/
theorem start_outside {definition : Definition} {code left stretch rest : Text}
    (codeEq : code = left ++ (stretch ++ rest))
    (none : ∀ front back, stretch = front ++ back → front ≠ [] → back ≠ [] →
      at? (front.reverse ++ left.reverse) (back ++ rest) = none)
    (member : definition ∈ all code) (later : left.length < definition.start) :
    (left ++ stretch).length ≤ definition.start := by
  by_contra inside
  obtain ⟨before, right, split, found⟩ := mem_all.mp member
  rw [at?_start found, List.length_reverse] at later inside
  rw [List.length_append] at inside
  rw [codeEq] at split
  rcases List.append_eq_append_iff.mp split with ⟨front, rfl, tail⟩ | ⟨more, leftEq, -⟩
  · rw [@List.length_append _ left] at later inside
    rcases List.append_eq_append_iff.mp tail with ⟨more, frontEq, -⟩ | ⟨back, stretchEq, rfl⟩
    · rw [frontEq, List.length_append] at inside
      omega
    · have after : front ≠ [] := by
        rintro rfl
        simp at later
      have before : back ≠ [] := by
        rintro rfl
        rw [stretchEq, List.append_nil] at inside
        omega
      have absent := none front back stretchEq after before
      rw [← List.reverse_append, found] at absent
      cases absent
  · rw [leftEq, List.length_append] at later
    omega

/-- A definition that starts after another one with an ordinary name starts after that name. -/
theorem Stands.nameEnd_le {first second : Definition} {code left lead rest : Text}
    (stands : first.Stands code left lead rest) (ordinary : Ordinary first.header.name)
    (member : second ∈ all code) (later : first.start < second.start) :
    first.header.nameEnd ≤ second.start := by
  have codeEq : code = left ++ (("def" ++ (lead ++ first.header.name)) ++ rest) := by
    rw [stands.code]
    simp
  rw [stands.start] at later
  rw [stands.nameEnd]
  refine start_outside codeEq ?_ member later
  intro front back split after before
  exact at?_inside stands.isLead ordinary stands.named split after before left.reverse

/-- Whatever its name is, it starts after the lead. -/
theorem Stands.nameBegin_le {first second : Definition} {code left lead rest : Text}
    (stands : first.Stands code left lead rest) (member : second ∈ all code) (later : first.start < second.start) :
    first.header.nameBegin ≤ second.start := by
  have codeEq : code = left ++ (("def" ++ lead) ++ (first.header.name ++ rest)) := by
    rw [stands.code]
    simp
  rw [stands.start] at later
  rw [stands.nameBegin]
  refine start_outside codeEq ?_ member later
  intro front back split after before
  exact at?_of_no_head (stands.isLead.no_head split after before _)

theorem start_lt_nameBegin {definition : Definition} {code : Text} (member : definition ∈ all code) :
    definition.start < definition.header.nameBegin := by
  obtain ⟨left, lead, rest, stands⟩ := exists_stands member
  rw [stands.start, stands.nameBegin, List.length_append, List.length_append]
  change _ < _ + (3 + _)
  omega

theorem nameEnd_eq {definition : Definition} {code : Text} (member : definition ∈ all code) :
    definition.header.nameEnd = definition.header.nameBegin + definition.header.name.length := by
  obtain ⟨left, lead, rest, stands⟩ := exists_stands member
  rw [stands.nameEnd, stands.nameBegin]
  simp only [List.length_append]
  omega

/-- The names come in the order of the definitions. -/
theorem all_names_pairwise (code : Text) :
    (all code).Pairwise fun first second => first.header.nameBegin < second.header.nameBegin := by
  refine (all_pairwise code).imp_of_mem ?_
  intro first second inFirst inSecond order
  obtain ⟨left, lead, rest, stands⟩ := exists_stands inFirst
  exact Nat.lt_of_le_of_lt (stands.nameBegin_le inSecond order) (start_lt_nameBegin inSecond)

/-! ### Names in the text -/

/-- A definition whose name is an identifier, seen from the text.  After its `def` the scan is between two steps, the
lead and the name stand in the text as in the code, and the name is a whole word there too. -/
theorem Stands.in_text {definition : Definition} {text left lead rest : Text}
    (stands : definition.Stands (blank text) left lead rest) (identifier : IsIdentifier definition.header.name) :
    ∃ (before after : Text) (scan : Blanking), text = before ++ (lead ++ (definition.header.name ++ after)) ∧
      before.length = left.length + 3 ∧ (∀ next ∈ after.head?, next.isWord = false) ∧ scan.behind = before.reverse ∧
      scan.ahead = lead ++ (definition.header.name ++ after) ∧
      (scan.past (lead ++ definition.header.name) after).rest = rest := by
  obtain ⟨gap, others, leadEq, isGap⟩ := stands.isLead.head
  obtain ⟨first, head, start⟩ := identifier.starts
  obtain ⟨tail, nameEq⟩ := List.head?_eq_some_iff.mp head
  have noNewline : newline ∉ others := by
    intro member
    cases stands.isLead.isPlain (show newline ∈ lead by simp [leadEq, member])
  have goesOn : ∃ other ∈ firstLine (others ++ (definition.header.name ++ rest)), other.isBlank = false := by
    have word := Symbol.isWord_of_isNameStart start
    refine ⟨first, ?_, Symbol.isBlank_of_isWord word⟩
    rw [nameEq]
    exact Text.mem_firstLine noNewline (ne_newline_of_isWord word)
  have shows : (Blanking.start text).rest =
      (left ++ [.glyph 'd', .glyph 'e']) ++ .glyph 'f' :: gap :: (others ++ (definition.header.name ++ rest)) := by
    rw [← Blanking.blank_eq_rest, stands.code, leadEq]
    simp [Text.ofString]
  obtain ⟨scan, moves, scanRest⟩ := Blanking.between_steps_after_word _ (Blanking.start_sound text)
    (by decide) (by decide) isGap goesOn shows
  have plainNext : scan.rest = (lead ++ definition.header.name) ++ rest := by
    rw [scanRest, leadEq]
    simp
  obtain ⟨after, ahead, past⟩ := scan.rest_of_plain plainNext (by
      intro symbol member
      rcases List.mem_append.mp member with inLead | inName
      · exact stands.isLead.isPlain inLead
      · exact isPlain_of_isWord (identifier.words symbol inName)) (by
      intro last member
      rw [List.getLast?_append_of_ne_nil _ stands.nonempty] at member
      exact Symbol.isBlank_of_isWord (identifier.words last (List.mem_of_getLast? member)))
  have size : (left ++ [Symbol.glyph 'd', .glyph 'e'] ++ [Symbol.glyph 'f']).length = left.length + 3 := by simp
  have within : left.length + 3 ≤ text.length := by
    rw [← blank_length text, stands.code]
    simp [Text.ofString]
  have behindEq := moves.behind
  have aheadEq := moves.ahead
  rw [size] at behindEq aheadEq
  refine ⟨text.take (left.length + 3), after, scan, ?_, List.length_take_of_le within, ?_, ?_, ?_, past⟩
  · rw [← List.append_assoc lead, ← ahead, aheadEq]
    exact (List.take_append_drop _ _).symm
  · intro next member
    rw [Bool.eq_false_iff]
    intro word
    obtain ⟨below, afterEq⟩ := List.head?_eq_some_iff.mp member
    obtain ⟨shown, restEq⟩ := Blanking.rest_head_plain
      (show (scan.past (lead ++ definition.header.name) after).ahead = next :: below from afterEq)
      (isPlain_of_isWord word)
    have outside := identifier.stops stands.named next (by rw [← past, restEq]; rfl)
    rw [word] at outside
    cases outside
  · rw [behindEq]
    exact List.append_nil _
  · rw [ahead, List.append_assoc]

end Definition

end AccessorLint.Source
