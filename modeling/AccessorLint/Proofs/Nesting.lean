import Mathlib
import AccessorLint.Proofs.Placement
import AccessorLint.Proofs.Search
set_option autoImplicit false

/-!
Methods inside methods.

The extent of a nested method is found twice: by its own search, and on the way of the search for the end of the method
around it.  The two searches read the same tokens, one of them some blocks further out, and agree on what each token
opens or closes as long as they agree on whether a statement starts and whether a loop awaits its `do`.  They start out
with different answers after the head of the nested method, which matters if a conditional word comes first there.
-/

namespace AccessorLint.Source

open AccessorLint.Symbol (newline)

/-! ### Readings at different depths -/

namespace Block

/-- What two readings have in common if one of them is so many blocks further out. -/
structure Further (depth : Nat) (outer inner : Block) : Prop where
  nested : outer.inner = inner.inner + depth + 1
  atStatement : outer.atStatement = inner.atStatement
  awaitsDo : outer.awaitsDo = inner.awaitsDo

variable {outer inner next : Block} {depth length : Nat} {behind word text : Text}

theorem readKeyword_further (nested : outer.inner = inner.inner + depth + 1) (awaits : outer.awaitsDo = inner.awaitsDo)
    (starts : outer.atStatement = inner.atStatement ∨ word ∉ conditionalOpeners)
    (reading : outer.readKeyword word text = .goesOn next length) :
    (∃ below, inner.readKeyword word text = .goesOn below length ∧ Further depth next below) ∨
      inner.readKeyword word text = .closed length := by
  unfold readKeyword at reading ⊢
  by_cases isEnd : word = "end"
  · rw [if_pos isEnd, nested] at reading
    rw [if_pos isEnd]
    cases reading
    cases depthHere : inner.inner with
    | zero => exact Or.inr rfl
    | succ fewer =>
        left
        refine ⟨_, rfl, ?_, rfl, awaits⟩
        dsimp only
        omega
  rw [if_neg isEnd] at reading ⊢
  left
  by_cases isDef : word = "def"
  · rw [if_pos isDef] at reading ⊢
    cases found : Header.read? text with
    | none =>
        rw [found] at reading
        cases reading
        exact ⟨_, rfl, by dsimp only; omega, rfl, awaits⟩
    | some header =>
        rw [found] at reading
        cases reading
        refine ⟨_, rfl, ?_, rfl, awaits⟩
        dsimp only
        split <;> omega
  rw [if_neg isDef] at reading ⊢
  by_cases opens : blockOpeners.contains word = true
  · rw [if_pos opens] at reading ⊢
    cases reading
    exact ⟨_, rfl, by dsimp only; omega, rfl, awaits⟩
  rw [if_neg opens] at reading ⊢
  by_cases conditional : conditionalOpeners.contains word = true
  · rw [if_pos conditional] at reading ⊢
    have same := starts.resolve_right (not_not.mpr (List.contains_iff_mem.mp conditional))
    rw [same] at reading
    split at reading
    · rename_i atStart
      cases reading
      rw [if_pos atStart]
      exact ⟨_, rfl, by dsimp only; omega, rfl, rfl⟩
    · rename_i modifies
      cases reading
      rw [if_neg modifies]
      exact ⟨_, rfl, nested, rfl, awaits⟩
  rw [if_neg conditional] at reading ⊢
  by_cases isDo : word = "do"
  · rw [if_pos isDo] at reading ⊢
    cases reading
    refine ⟨_, rfl, ?_, rfl, rfl⟩
    dsimp only
    rw [awaits]
    split <;> omega
  rw [if_neg isDo] at reading ⊢
  cases reading
  exact ⟨_, rfl, nested, rfl, awaits⟩

/-- The two readings of a token agree, unless the `end` of the inner block is read. -/
theorem read_further (nested : outer.inner = inner.inner + depth + 1) (awaits : outer.awaitsDo = inner.awaitsDo)
    (starts : outer.atStatement = inner.atStatement ∨ text.take (tokenLength text) ∉ conditionalOpeners)
    (reading : outer.read behind text = .goesOn next length) :
    (∃ below, inner.read behind text = .goesOn below length ∧ Further depth next below) ∨
      inner.read behind text = .closed length := by
  unfold read at reading ⊢
  dsimp only at reading ⊢
  split_ifs at reading ⊢ with ends noWord noPlace
  · cases reading
    exact Or.inl ⟨_, rfl, nested, rfl, rfl⟩
  · cases reading
    exact Or.inl ⟨_, rfl, nested, rfl, awaits⟩
  · cases reading
    exact Or.inl ⟨_, rfl, nested, rfl, awaits⟩
  · exact readKeyword_further nested awaits starts reading

end Block

/-! ### Two searches -/

def firstToken (text : Text) : Text :=
  (text.dropWhile isFiller).take (tokenLength (text.dropWhile isFiller))

theorem firstToken_filler {symbol : Symbol} (fills : isFiller symbol = true) (rest : Text) :
    firstToken (symbol :: rest) = firstToken rest := by
  unfold firstToken
  rw [List.dropWhile_cons_of_pos fills]

theorem firstToken_visible {text : Text} (visible : ∀ first ∈ text.head?, isFiller first = false) :
    firstToken text = text.take (tokenLength text) := by
  unfold firstToken
  cases text with
  | nil => rfl
  | cons symbol rest => rw [List.dropWhile_cons_of_neg (by simp [visible symbol rfl])]

namespace Search

/-- Whether two searches are at one place, one of them so many blocks further out, and read the next token alike. -/
structure Within (depth : Nat) (outer inner : Search) : Prop where
  behind : outer.behind = inner.behind
  ahead : outer.ahead = inner.ahead
  nested : outer.block.inner = inner.block.inner + depth + 1
  awaits : outer.block.awaitsDo = inner.block.awaitsDo
  starts : outer.block.atStatement = inner.block.atStatement ∨ firstToken outer.ahead ∉ conditionalOpeners

variable {depth : Nat} {outer inner next last : Search}

/-- The inner search takes the step of the outer one, or is at its `end`. -/
theorem Within.step (within : Within depth outer inner) (step : Step outer next) :
    (∃ below, Step inner below ∧ Within depth next below) ∨
      inner.Closes ∧ inner.behind.length + 3 ≤ next.behind.length := by
  obtain ⟨innerBlock, innerBehind, innerAhead⟩ := inner
  obtain ⟨behindEq, aheadEq, nested, awaits, starts⟩ := within
  dsimp only at behindEq aheadEq nested awaits starts
  cases step with
  | @filler block behind rest symbol fills =>
      subst behindEq aheadEq
      left
      refine ⟨_, .filler fills, rfl, rfl, nested, awaits, ?_⟩
      rw [firstToken_filler fills] at starts
      exact starts
  | @token block nextBlock behind text length nonempty visible reading =>
      subst behindEq aheadEq
      dsimp only at starts
      rw [firstToken_visible visible] at starts
      rcases Block.read_further nested awaits starts reading with ⟨below, goesOn, further⟩ | closed
      · left
        exact ⟨_, .token nonempty visible goesOn, rfl, rfl, further.nested, further.awaitsDo, Or.inl further.atStatement⟩
      · right
        refine ⟨⟨nonempty, visible, length, closed⟩, ?_⟩
        have bounds := block.read_bounds behind nonempty
        rw [reading] at bounds
        have inside : length ≤ text.length := bounds.2
        obtain ⟨token, rest, textEq, size, -⟩ := exists_token nonempty
        rw [textEq] at size closed
        have three := (Block.read_closed size closed).2.1
        change behind.length + 3 ≤ ((text.take length).reverse ++ behind).length
        rw [List.length_append, List.length_reverse, List.length_take_of_le inside]
        omega

/-- Where the outer search finds its `end`, the inner one has found its own before. -/
theorem Within.closes (within : Within depth outer inner) (reaches : outer.Reaches last) (closes : last.Closes) :
    ∃ found, inner.Reaches found ∧ found.Closes ∧ found.behind.length + 3 ≤ last.behind.length := by
  induction reaches using Relation.ReflTransGen.head_induction_on generalizing inner with
  | refl =>
      have outermost := closes.inner
      have nested := within.nested
      omega
  | @head outer next step later ih =>
      rcases within.step step with ⟨below, innerStep, stays⟩ | ⟨here, passes⟩
      · obtain ⟨found, reached, found_closes, before⟩ := ih stays
        exact ⟨found, .head innerStep reached, found_closes, before⟩
      · have further := Reaches.behind_le later
        exact ⟨inner, .refl _, here, by omega⟩

end Search

/-! ### Methods -/

theorem Block.read_def (block : Block) {behind ahead : Text} {header : Header}
    (opens : Definition.opens behind ahead = true) (found : Header.read? ahead = some header) :
    block.read behind ahead = block.readDef (some header) := by
  obtain ⟨lead, name, rest, rfl, isLead, -⟩ := Header.read?_sound found
  obtain ⟨gap, others, rfl, isGap⟩ := isLead.head
  have noPart : gap.isNamePart = false := isNamePart_of_not_isWord (isWord_of_isGap isGap)
  have size : tokenLength (Text.ofString "def" ++ (gap :: others ++ (name ++ rest))) = (Text.ofString "def").length := by
    apply tokenLength_word (by decide) (by decide)
    · intro next member
      cases member
      exact noPart
    · intro next member
      cases member
      rcases (isGap_iff gap).mp isGap with rfl | rfl <;> decide
  have place : isKeywordPlace behind (gap :: others ++ (name ++ rest)) = true :=
    (Bool.and_eq_true_iff.mp opens).2
  rw [read_token block behind size, if_neg (by decide), if_neg (by decide), place, if_neg (by decide),
    readKeyword_def, found]

namespace Definition

def search (code : Text) (definition : Definition) : Search :=
  ⟨Block.opened, (code.take definition.header.headerEnd).reverse, code.drop definition.header.headerEnd⟩

/-- Whether a keyword `end` closes a method. -/
def IsClosed (code : Text) (definition : Definition) : Prop :=
  ∃ last, (definition.search code).Reaches last ∧ last.Closes

/-- Whether the search for the end of a method steps over an offset, inside a token or the head of another method. -/
def StepsOver (code : Text) (definition : Definition) (offset : Nat) : Prop :=
  ∃ place next, (definition.search code).Reaches place ∧ Search.Step place next ∧ place.behind.length < offset ∧
    offset < next.behind.length

/-- Whether a loop awaits its `do` where the search for the end of a method comes to an offset. -/
def AwaitsDo (code : Text) (definition : Definition) (offset : Nat) : Prop :=
  ∃ place, (definition.search code).Reaches place ∧ place.behind.length = offset ∧ place.block.awaitsDo = true

/-- Whether the search for the end of a method comes to an offset in a state. -/
def ComesTo (code : Text) (definition : Definition) (offset : Nat) (block : Block) : Prop :=
  (definition.search code).Reaches ⟨block, (code.take offset).reverse, code.drop offset⟩

variable {code : Text} {definition outer inner : Definition} {offset : Nat} {block : Block}

theorem stop_eq_finish (member : definition ∈ all code) (regular : definition.header.endless = false) :
    definition.stop = (definition.search code).finish := by
  have within := (headerEnd_bounds member).2.1
  rw [stop_eq member, regular]
  change _ = (code.take definition.header.headerEnd).reverse.length + Block.opened.extent _ _
  rw [List.length_reverse, List.length_take_of_le within]
  rfl

/-- A method that stops before the end of the code is closed. -/
theorem isClosed_of_stop_lt (member : definition ∈ all code) (regular : definition.header.endless = false)
    (before : definition.stop < code.length) : definition.IsClosed code := by
  rcases (definition.search code).exists_closes with closed | ends
  · exact closed
  · have within := (headerEnd_bounds member).2.1
    rw [← stop_eq_finish member regular] at ends
    change _ = (code.take definition.header.headerEnd).reverse.length + (code.drop definition.header.headerEnd).length
      at ends
    rw [List.length_reverse, List.length_take_of_le within, List.length_drop] at ends
    omega

theorem search_whole {place : Search} (reaches : (definition.search code).Reaches place) :
    place.behind.reverse ++ place.ahead = code := by
  rw [reaches.whole]
  change (code.take definition.header.headerEnd).reverse.reverse ++ code.drop definition.header.headerEnd = code
  rw [List.reverse_reverse, List.take_append_drop]

theorem ComesTo.not_stepsOver (comes : definition.ComesTo code offset block) (within : offset ≤ code.length) :
    ¬definition.StepsOver code offset := by
  rintro ⟨place, next, reaches, step, before, after⟩
  have size : (code.take offset).reverse.length = offset := by
    rw [List.length_reverse, List.length_take_of_le within]
  have further := comes.not_stepped_over reaches step (by rw [size]; exact before)
  rw [size] at further
  omega

theorem ComesTo.not_awaitsDo (comes : definition.ComesTo code offset block) (within : offset ≤ code.length)
    (noLoop : block.awaitsDo = false) : ¬definition.AwaitsDo code offset := by
  rintro ⟨place, reaches, same, awaits⟩
  have size : (code.take offset).reverse.length = offset := by
    rw [List.length_reverse, List.length_take_of_le within]
  have equal := comes.place_unique reaches (by rw [size, same])
  rw [← equal, noLoop] at awaits
  cases awaits

/-- No definition starts inside the `end` of another one. -/
theorem start_le_of_closes {last : Search} (reaches : (outer.search code).Reaches last) (closes : last.Closes)
    (member : inner ∈ all code) (before : inner.start < last.behind.length + 3) :
    inner.start ≤ last.behind.length := by
  obtain ⟨length, closed⟩ := closes.reading
  obtain ⟨token, rest, aheadEq, size, -⟩ := exists_token closes.nonempty
  have isEnd : token = "end" := by
    rw [aheadEq] at size closed
    exact (Block.read_closed size closed).1
  have codeEq : code = last.behind.reverse ++ (("end" : Text) ++ rest) := by
    rw [← isEnd, ← aheadEq, search_whole reaches]
  obtain ⟨left, ahead, header, splitEq, opened, -, rfl⟩ := exists_head member
  change left.length < _ at before
  change left.length ≤ _
  by_contra inside
  -- the symbol before the `def` would be one of the first two of the `end`
  have noWord : left.reverse.head?.any Symbol.isWord = false := by
    simp only [opens, Bool.and_eq_true, Bool.not_eq_true'] at opened
    exact opened.1.1.2
  have leftEq : ∀ more, more ≤ 3 → left.length = last.behind.length + more →
      left = last.behind.reverse ++ ("end" : Text).take more := by
    intro more few size
    have taken := congrArg (List.take left.length) (splitEq.symm.trans codeEq)
    rw [List.take_left, size, ← last.behind.length_reverse, List.take_length_add_append,
      List.take_append_of_le_length few] at taken
    exact taken
  rcases (by omega : left.length = last.behind.length + 1 ∨ left.length = last.behind.length + 2) with one | two
  · rw [leftEq 1 (by decide) one, List.reverse_append] at noWord
    cases noWord
  · rw [leftEq 2 (by decide) two, List.reverse_append] at noWord
    cases noWord

/-- A search that neither steps over an offset on its way nor awaits a `do` there comes to it. -/
theorem comesTo_of_not_stepsOver {last : Search} (reaches : (definition.search code).Reaches last)
    (member : definition ∈ all code) (after : definition.header.headerEnd ≤ offset) (before : offset ≤ last.behind.length)
    (seen : ¬definition.StepsOver code offset) (noLoop : ¬definition.AwaitsDo code offset) :
    ∃ block, block.awaitsDo = false ∧ definition.ComesTo code offset block := by
  have within := (headerEnd_bounds member).2.1
  have start : (definition.search code).behind.length ≤ offset := by
    change (code.take definition.header.headerEnd).reverse.length ≤ offset
    rw [List.length_reverse, List.length_take_of_le within]
    exact after
  rcases reaches.exists_place start before with ⟨place, arrives, same⟩ | stepped
  · refine ⟨place.block, ?_, ?_⟩
    · rw [Bool.eq_false_iff]
      exact fun awaits => noLoop ⟨place, arrives, same, awaits⟩
    · have size : place.behind.reverse.length = offset := by rw [List.length_reverse, same]
      have whole := search_whole arrives
      have front : code.take offset = place.behind.reverse := by rw [← whole, ← size, List.take_left]
      have back : code.drop offset = place.ahead := by rw [← whole, ← size, List.drop_left]
      rw [ComesTo, front, back, List.reverse_reverse]
      exact arrives
  · exact absurd stepped seen

/-- After the head of a method, a search that comes to its `def` is one block further out than the search of the
method. -/
theorem ComesTo.within (comes : outer.ComesTo code inner.start block) (noLoop : block.awaitsDo = false)
    (member : inner ∈ all code) (regular : inner.header.endless = false)
    (plain : firstToken (code.drop inner.header.headerEnd) ∉ conditionalOpeners) :
    ∃ depth place, (outer.search code).Reaches place ∧ Search.Within depth place (inner.search code) := by
  obtain ⟨left, ahead, header, rfl, opened, read, rfl⟩ := exists_head member
  change header.endless = false at regular
  have bounds := Header.headerEnd_bounds read
  have reading : block.read left.reverse ahead =
      .goesOn ⟨block.inner + 1, false, block.awaitsDo⟩ header.headerEnd := by
    rw [block.read_def opened read]
    simp only [Block.readDef, regular, Bool.false_eq_true, if_false]
  have nonempty : ahead ≠ [] := List.ne_nil_of_length_pos (by omega)
  have visible : ∀ first ∈ ahead.head?, isFiller first = false := by
    intro first isFirst
    obtain ⟨lead, name, rest, rfl, -⟩ := Header.read?_sound read
    cases isFirst
    decide
  have step := Search.Step.token nonempty visible reading
  change (search _ outer).Reaches ⟨block, ((left ++ ahead).take left.length).reverse, (left ++ ahead).drop left.length⟩
    at comes
  rw [List.take_left, List.drop_left] at comes
  refine ⟨block.inner, _, comes.trans (.head step (.refl _)), ?_⟩
  change firstToken ((left ++ ahead).drop (header.headerEnd + left.length)) ∉ _ at plain
  rw [Nat.add_comm, List.drop_length_add_append] at plain
  constructor
  · change (ahead.take header.headerEnd).reverse ++ left.reverse =
      ((left ++ ahead).take (header.headerEnd + left.length)).reverse
    rw [Nat.add_comm, List.take_length_add_append, List.reverse_append]
  · change ahead.drop header.headerEnd = (left ++ ahead).drop (header.headerEnd + left.length)
    rw [Nat.add_comm, List.drop_length_add_append]
  · exact (Nat.zero_add _).symm ▸ rfl
  · exact noLoop
  · exact Or.inr plain

end Definition

end AccessorLint.Source

namespace AccessorLint

open Source (Block Definition Search blank conditionalOpeners firstToken)

/-- A method inside another one is closed before it, if the search for the end of the other one reads its `def` where no
loop awaits its `do`, and no conditional word comes first after its head. -/
theorem nested_method_ends_first (content : Text) {outer inner : Definition}
    (outerMember : outer ∈ Definition.all (blank content)) (innerMember : inner ∈ Definition.all (blank content))
    (outerBody : outer.header.endless = false) (innerBody : inner.header.endless = false)
    (closed : outer.IsClosed (blank content)) (after : outer.header.headerEnd ≤ inner.start)
    (before : inner.start < outer.stop) (seen : ¬outer.StepsOver (blank content) inner.start)
    (noLoop : ¬outer.AwaitsDo (blank content) inner.start)
    (plain : firstToken ((blank content).drop inner.header.headerEnd) ∉ conditionalOpeners) :
    inner.IsClosed (blank content) ∧ inner.stop < outer.stop := by
  obtain ⟨last, reaches, closes⟩ := closed
  have stop : outer.stop = last.behind.length + 3 := by
    rw [Definition.stop_eq_finish outerMember outerBody, ← reaches.finish, closes.finish]
  have inside := Definition.start_le_of_closes reaches closes innerMember (by omega)
  obtain ⟨block, quiet, comes⟩ :=
    Definition.comesTo_of_not_stepsOver reaches outerMember after inside seen noLoop
  obtain ⟨depth, place, arrives, within⟩ := comes.within quiet innerMember innerBody plain
  have onward := arrives.closes_later reaches closes
  obtain ⟨found, innerReaches, innerCloses, earlier⟩ := within.closes onward closes
  refine ⟨⟨found, innerReaches, innerCloses⟩, ?_⟩
  rw [Definition.stop_eq_finish innerMember innerBody, ← innerReaches.finish, innerCloses.finish, stop]
  omega

/-- A method with a modifier, inside another method. -/
theorem guarded_method_ends_first :
    ∃ outer inner, Definition.all (blank "def outer\n  def inner(a)\n    return if a\n  end\nend\n") = [outer, inner] ∧
      inner.IsClosed (blank "def outer\n  def inner(a)\n    return if a\n  end\nend\n") ∧ inner.stop < outer.stop := by
  let content : Text := "def outer\n  def inner(a)\n    return if a\n  end\nend\n"
  let outer : Definition := ⟨0, ⟨"outer", 4, 9, none, "", 9, false⟩, 50⟩
  let inner : Definition := ⟨12, ⟨"inner", 16, 21, none, "a", 24, false⟩, 46⟩
  have found : Definition.all (blank content) = [outer, inner] := by decide +kernel
  have outerMember : outer ∈ Definition.all (blank content) := found ▸ List.mem_cons_self
  have innerMember : inner ∈ Definition.all (blank content) := found ▸ List.mem_cons_of_mem _ List.mem_cons_self
  have closed : outer.IsClosed (blank content) :=
    Definition.isClosed_of_stop_lt outerMember rfl (by decide +kernel)
  have within : 12 ≤ (blank content).length := by decide +kernel
  have comes : outer.ComesTo (blank content) 12 ⟨0, true, false⟩ := by
    have here : outer.search (blank content) = ⟨Block.opened, ((blank content).take 9).reverse,
        .newline :: (("  " : Text) ++ (blank content).drop 12)⟩ := by
      have ahead : (blank content).drop 9 = .newline :: (("  " : Text) ++ (blank content).drop 12) := by decide +kernel
      rw [← ahead]
      rfl
    have there : ((blank content).take 12).reverse =
        ("  " : Text).reverse ++ (.newline :: ((blank content).take 9).reverse) := by decide +kernel
    rw [Definition.ComesTo, here, there]
    exact (Search.Reaches.line _ _ _).trans (Search.Reaches.fillers _ _ _ (by decide))
  exact ⟨outer, inner, found, nested_method_ends_first content outerMember innerMember rfl rfl closed (by decide)
    (by decide) (comes.not_stepsOver within) (comes.not_awaitsDo within rfl) (by decide +kernel)⟩

/-- Where a conditional word comes first after the head of the inner method, it opens a block in the search of the inner
method but not in the search of the outer one, and both methods end with the same `end`. -/
theorem conditional_after_head_shares_end :
    ∃ outer inner,
      Definition.all (blank "def outer\n  def inner(a) if a\n    1\n    end\n  end\nend\n") = [outer, inner] ∧
      outer.header.endless = false ∧ inner.header.endless = false ∧
      outer.IsClosed (blank "def outer\n  def inner(a) if a\n    1\n    end\n  end\nend\n") ∧
      inner.IsClosed (blank "def outer\n  def inner(a) if a\n    1\n    end\n  end\nend\n") ∧
      outer.header.headerEnd ≤ inner.start ∧ inner.start < outer.stop ∧ ¬ inner.stop < outer.stop := by
  let content : Text := "def outer\n  def inner(a) if a\n    1\n    end\n  end\nend\n"
  let outer : Definition := ⟨0, ⟨"outer", 4, 9, none, "", 9, false⟩, 49⟩
  let inner : Definition := ⟨12, ⟨"inner", 16, 21, none, "a", 24, false⟩, 49⟩
  have found : Definition.all (blank content) = [outer, inner] := by decide +kernel
  have outerMember : outer ∈ Definition.all (blank content) := found ▸ List.mem_cons_self
  have innerMember : inner ∈ Definition.all (blank content) := found ▸ List.mem_cons_of_mem _ List.mem_cons_self
  exact ⟨outer, inner, found, rfl, rfl, Definition.isClosed_of_stop_lt outerMember rfl (by decide +kernel),
    Definition.isClosed_of_stop_lt innerMember rfl (by decide +kernel), by decide, by decide, by decide⟩

end AccessorLint
