import Mathlib
import AccessorLint.Proofs.Appended
import AccessorLint.Proofs.Rendering
import AccessorLint.Proofs.Shapes
set_option autoImplicit false

/-!
The names of called methods, and where a block ends.

Two codes are followed that differ in the name after one dot or double colon.  Up to that name the search for the end
of a block reads the same tokens in both, or a number that runs over the name.  After a dot the name is no keyword, and
after a double colon it may be one.  Past the name only the marks behind it matter, and these are the same.
-/

namespace AccessorLint.Source

open AccessorLint.Symbol (newline)

/-! ### Keyword places -/

section Places

variable {left right : Text}

theorem SameShape.isKeywordPlace_after (shape : SameShape left right) (behind : Text) :
    isKeywordPlace behind left = isKeywordPlace behind right := by
  have first := shape.head?_eq_iff (.glyph ':') (by decide)
  have second := (shape.drop 1).head?_eq_iff (.glyph ':') (by decide)
  simp only [isKeywordPlace, first, ne_eq, second]

theorem SameShape.isKeywordPlace_behind (shape : SameShape left right) (after : Text) :
    isKeywordPlace left after = isKeywordPlace right after := by
  have marks := shape.any_head? (.isOneOf "@$" (by simp; decide))
  have firstDot := shape.head?_eq_iff (.glyph '.') (by decide)
  have secondDot := (shape.drop 1).head?_eq_iff (.glyph '.') (by decide)
  have firstColon := shape.head?_eq_iff (.glyph ':') (by decide)
  have secondColon := (shape.drop 1).head?_eq_iff (.glyph ':') (by decide)
  simp only [isKeywordPlace, marks, firstDot, firstColon, ne_eq, secondDot, secondColon]

theorem SameShape.tokenLength_cons (shape : SameShape left right) (first : Symbol) :
    tokenLength (first :: left) = tokenLength (first :: right) := by
  have part := shape.takeWhile_length .namePart
  have number := shape.takeWhile_length (.or .word (.eq (.glyph '.') (by decide)))
  have marks := (shape.drop (right.takeWhile Symbol.isNamePart).length).any_head? (.isOneOf "?!" (by simp; decide))
  have dots : Text.startsWith left ".." = Text.startsWith right ".." := shape.startsWith_eq (by decide)
  have pair : (first.isOneOf ":.&|" && left.head? = some first) =
      (first.isOneOf ":.&|" && right.head? = some first) := by
    cases pairs : first.isOneOf ":.&|" with
    | false => rfl
    | true =>
        have outside : first.isNamePart = false := isNamePart_of_isOneOf (by simp; decide) pairs
        simp only [shape.head?_eq_iff first outside]
  simp only [tokenLength, part, number, marks, dots, pair]

theorem isKeywordPlace_dot {receiver : Text} (single : receiver.getLast? ≠ some (.glyph '.')) (after : Text) :
    isKeywordPlace (receiver ++ ".").reverse after = false := by
  rw [← List.head?_reverse] at single
  rw [List.reverse_append]
  change isKeywordPlace (.glyph '.' :: receiver.reverse) after = false
  simp only [isKeywordPlace, List.head?_cons, List.drop_succ_cons, List.drop_zero, single, ne_eq, not_false_eq_true,
    decide_true, Bool.and_true, Bool.not_true, Bool.and_false, Bool.false_and]

theorem isKeywordPlace_colon (behind : Text) {after : Text}
    (single : after.head? = some (.glyph ':') ∧ (after.drop 1).head? ≠ some (.glyph ':')) :
    isKeywordPlace behind after = false := by
  obtain ⟨first, second⟩ := single
  simp only [isKeywordPlace, first, ne_eq, second, not_false_eq_true, decide_true, Bool.and_true, Bool.not_true,
    Bool.and_false]

end Places

/-! ### Tokens before the name -/

/-- A number is read as a value, however far it goes. -/
theorem Block.read_number (block : Block) (behind : Text) {first : Symbol} (noName : first.isNameStart = false)
    (digit : first.isDecimal = true) (others : Text) :
    block.read behind (first :: others) =
      .goesOn { block with atStatement := false } (tokenLength (first :: others)) := by
  obtain ⟨token, rest, whole, size, -⟩ := exists_token (List.cons_ne_nil first others)
  have nonempty : token ≠ [] := by
    have positive := tokenLength_pos (List.cons_ne_nil first others)
    rw [size] at positive
    exact List.length_pos_iff.mp positive
  obtain ⟨head, run, rfl⟩ := List.exists_cons_of_ne_nil nonempty
  obtain ⟨rfl, rfl⟩ := List.cons.inj whole
  have isDigit : first.isDigit = true := by
    cases first with
    | glyph char => exact Bool.or_eq_true_iff.mpr (Or.inl digit)
    | stray low => cases digit
  have free : first :: run ∉ reservedWords := by
    have named : ∀ word ∈ reservedWords, word.head?.any Symbol.isNameStart = true := by decide
    intro reserved
    have start : first.isNameStart = true := named _ reserved
    rw [noName] at start
    cases start
  have goesOn : ¬(first :: run = [newline] || first :: run = ";") = true :=
    not_separator (Symbol.ne_of_property digit (by decide)) (Symbol.ne_of_property digit (by decide)) run
  have reading : block.read behind ((first :: run) ++ rest) = _ := block.read_token behind size
  rw [if_neg goesOn, List.head?_cons, Option.any_some, Option.any_some, isDigit, Bool.not_true, Bool.and_false,
    block.readKeyword_unreserved free, ite_self, ite_self] at reading
  rw [size]
  exact reading

theorem not_mem_of_link {first link : Symbol} {run : Text} (start : first.isNameStart = true)
    (parts : ∀ symbol ∈ run, symbol.isNamePart = true) (isLink : link = .glyph '.' ∨ link = .glyph ':') :
    link ∉ first :: run := by
  have noStart : link.isNameStart = false := by rcases isLink with rfl | rfl <;> decide
  have noPart : link.isNamePart = false := by rcases isLink with rfl | rfl <;> decide
  rw [List.mem_cons, not_or]
  refine ⟨(Symbol.ne_of_property start noStart).symm, fun member => ?_⟩
  rw [parts link member] at noPart
  cases noPart

variable {word other mid back : Text}

/-- A token that starts before a called name ends before it, unless it is a number. -/
theorem Token.cases_before {token rest : Text} (isToken : Token token rest) (name : SmallName word)
    (linked : Linked mid) (nonempty : mid ≠ []) (whole : mid ++ (word ++ back) = token ++ rest) :
    (∃ more, mid = token ++ more ∧ rest = more ++ (word ++ back)) ∨
      ∃ first others, mid = first :: others ∧ first.isNameStart = false ∧ first.isDecimal = true := by
  rcases List.append_eq_append_iff.mp whole with ⟨more, tokenEq, nameEq⟩ | ⟨more, midEq, restEq⟩
  · cases more with
    | nil =>
        rw [List.append_nil] at tokenEq
        exact Or.inl ⟨[], by rw [tokenEq, List.append_nil], nameEq.symm⟩
    | cons symbol others =>
        -- The token holds the dot or colon and the first symbol of the name, as only a number does.
        obtain ⟨initial, letters, rfl, -, part, -⟩ := name.exists_first
        obtain ⟨rfl, -⟩ := List.cons.inj nameEq
        have holdsLink : mid.getLast nonempty ∈ token := by
          rw [tokenEq]
          exact List.mem_append_left _ (List.getLast_mem nonempty)
        have isLink := linked _ (List.getLast?_eq_getLast_of_ne_nil nonempty)
        have holdsName : initial ∈ token := by
          rw [tokenEq]
          exact List.mem_append_right _ List.mem_cons_self
        cases isToken with
        | word start parts => exact absurd holdsLink (not_mem_of_link start parts isLink)
        | @marked first mark run rest start parts isMark =>
            rw [← List.cons_append] at holdsLink
            rcases List.mem_append.mp holdsLink with inWord | isLast
            · exact absurd inWord (not_mem_of_link start parts isLink)
            · rw [← List.mem_singleton.mp isLast] at isMark
              rcases isLink with same | same
              · rw [same] at isMark
                cases isMark
              · rw [same] at isMark
                cases isMark
        | number noName digit =>
            obtain ⟨head, tail, rfl⟩ := List.exists_cons_of_ne_nil nonempty
            obtain ⟨rfl, -⟩ := List.cons.inj tokenEq
            exact Or.inr ⟨_, tail, rfl, noName, digit⟩
        | @operator first more rest noName noDigit =>
            rw [← List.replicate_succ] at holdsName
            rw [(List.mem_replicate.mp holdsName).2, isNamePart_of_not_start noName noDigit] at part
            cases part
  · exact Or.inl ⟨more, midEq, restEq⟩

theorem Block.readDef_reach (block : Block) {header other : Option Header}
    (same : header.map Header.reach = other.map Header.reach) : block.readDef header = block.readDef other := by
  cases header with
  | none =>
      rw [Option.map_none, eq_comm, Option.map_eq_none_iff] at same
      rw [same]
  | some header =>
      obtain ⟨found, rfl, reaches⟩ := Option.map_eq_some_iff.mp same.symm
      obtain ⟨sameEnd, sameKind⟩ := Prod.mk.inj reaches
      rw [Block.readDef, Block.readDef, sameEnd, sameKind]

/-- What is read before a called name does not depend on the name. -/
theorem Block.read_exchange (block : Block) (behind : Text) (exchange : Exchange word other) (linked : Linked mid)
    (nonempty : mid ≠ []) (back : Text) :
    block.read behind (mid ++ (word ++ back)) = block.read behind (mid ++ (other ++ back)) := by
  have some : mid ++ (word ++ back) ≠ [] := List.append_ne_nil_of_left_ne_nil nonempty _
  obtain ⟨token, rest, whole, size, isToken⟩ := exists_token some
  rcases isToken.cases_before exchange.name linked nonempty whole with
    ⟨more, rfl, rfl⟩ | ⟨first, others, rfl, noName, digit⟩
  · have shape := exchange.shape more back
    have otherSize : tokenLength (token ++ (more ++ (other ++ back))) = token.length := by
      have positive := tokenLength_pos some
      rw [size] at positive
      obtain ⟨first, run, rfl⟩ := List.exists_cons_of_ne_nil (List.length_pos_iff.mp positive)
      rw [← size, whole]
      exact (((SameShape.refl run).append shape).tokenLength_cons first).symm
    have keyword : block.readKeyword token (token ++ (more ++ (word ++ back))) =
        block.readKeyword token (token ++ (more ++ (other ++ back))) := by
      by_cases isDef : token = "def"
      · subst isDef
        have later : more ≠ [] := by
          rintro rfl
          rcases linked (.glyph 'f') rfl with same | same
          · cases same
          · cases same
        have linkedMore : Linked more := linked.drop 3
        have reaches := Header.read?_exchange exchange linkedMore later back
        rw [readKeyword_def, readKeyword_def, block.readDef_reach reaches]
      · exact block.readKeyword_of_ne isDef _ _
    rw [List.append_assoc, List.append_assoc, block.read_token behind (whole ▸ size), block.read_token behind otherSize,
      shape.isKeywordPlace_after, keyword]
  · rw [List.cons_append, List.cons_append, block.read_number behind noName digit,
      block.read_number behind noName digit, (exchange.shape others back).tokenLength_cons]

/-! ### The name -/

/-- The keywords, by what becomes of the search at them. -/
def keywordRoles : List (List Text) :=
  [["end"], ["def"], ["do"], blockOpeners, conditionalOpeners, loopHeads,
    statementLeaders.filter fun word => !blockOpeners.contains word]

/-- Whether two words are keywords of the same role, or both none. -/
def SameRole (word other : Text) : Prop :=
  ∀ words ∈ keywordRoles, word ∈ words ↔ other ∈ words

instance (word other : Text) : Decidable (SameRole word other) :=
  inferInstanceAs (Decidable (∀ words ∈ keywordRoles, word ∈ words ↔ other ∈ words))

theorem SameRole.eq_of_single (role : SameRole word other) {keyword : Text} (single : [keyword] ∈ keywordRoles)
    (isKeyword : word = keyword ∨ other = keyword) : word = other := by
  have both := role [keyword] single
  rw [List.mem_singleton, List.mem_singleton] at both
  rcases isKeyword with isKeyword | isKeyword
  · rw [isKeyword, both.mp isKeyword]
  · rw [isKeyword, both.mpr isKeyword]

theorem SameRole.readKeyword_eq (role : SameRole word other) (size : word.length = other.length) (block : Block)
    (back : Text) : block.readKeyword word (word ++ back) = block.readKeyword other (other ++ back) := by
  by_cases same : word = other
  · rw [same]
  · have differs : ∀ keyword : Text, [keyword] ∈ keywordRoles → word ≠ keyword ∧ other ≠ keyword :=
      fun keyword single => ⟨fun isKeyword => same (role.eq_of_single single (Or.inl isKeyword)),
        fun isKeyword => same (role.eq_of_single single (Or.inr isKeyword))⟩
    obtain ⟨noEnd, otherNoEnd⟩ := differs "end" (by decide)
    obtain ⟨noDef, otherNoDef⟩ := differs "def" (by decide)
    obtain ⟨noDo, otherNoDo⟩ := differs "do" (by decide)
    have alike : ∀ words ∈ keywordRoles, words.contains word = words.contains other := by
      intro words member
      rw [Bool.eq_iff_iff, List.contains_iff_mem, List.contains_iff_mem]
      exact role words member
    rw [Block.readKeyword, Block.readKeyword, if_neg noEnd, if_neg otherNoEnd, if_neg noDef, if_neg otherNoDef,
      if_neg noDo, if_neg otherNoDo, alike blockOpeners (by decide), alike conditionalOpeners (by decide),
      alike loopHeads (by decide), size]
    by_cases opens : blockOpeners.contains other = true
    · rw [if_pos opens, if_pos opens]
    · have leads : statementLeaders.contains word = statementLeaders.contains other := by
        have both := role (statementLeaders.filter fun word => !blockOpeners.contains word) (by decide)
        rw [List.mem_filter, List.mem_filter, alike blockOpeners (by decide), Bool.eq_false_iff.mpr opens, Bool.not_false,
          and_iff_left rfl, and_iff_left rfl] at both
        rw [Bool.eq_iff_iff, List.contains_iff_mem, List.contains_iff_mem]
        exact both
      rw [leads]

theorem SmallName.starts_name (name : SmallName word) : ∃ first ∈ word.head?, first.isNameStart = true := by
  obtain ⟨first, run, rfl, start, -⟩ := name.exists_first
  exact ⟨first, rfl, start⟩

theorem SmallName.read_eq (name : SmallName word) (block : Block) (behind : Text)
    (stops : ∀ next ∈ back.head?, next.isNamePart = false) (unmarked : ∀ next ∈ back.head?, next.isOneOf "?!" = false) :
    block.read behind (word ++ back) =
      if isKeywordPlace behind back then block.readKeyword word (word ++ back)
      else .goesOn { block with atStatement := false } word.length := by
  have size := tokenLength_word name.starts_name name.parts stops unmarked
  obtain ⟨first, run, rfl, start, -⟩ := name.exists_first
  exact block.read_word behind size start

theorem SmallName.read_marked (name : SmallName word) (block : Block) (behind : Text) {mark : Symbol}
    (isMark : mark.isOneOf "?!" = true) (later : Text) :
    block.read behind (word ++ mark :: later) = .goesOn { block with atStatement := false } (word.length + 1) := by
  have size := tokenLength_marked name.starts_name name.parts isMark later
  obtain ⟨first, run, rfl, start, -⟩ := name.exists_first
  have free : first :: (run ++ [mark]) ∉ reservedWords :=
    unreserved_of_mark (List.mem_cons_of_mem first (List.mem_concat_self : mark ∈ run ++ [mark]))
      (Bool.or_eq_true_iff.mpr (Or.inr isMark))
  have whole : first :: run ++ mark :: later = (first :: (run ++ [mark])) ++ later := by simp
  have length : (first :: run).length + 1 = (first :: (run ++ [mark])).length := by simp
  rw [whole, length] at size
  rw [whole, length]
  exact block.read_unreserved behind size start free

/-- Whether a name between two texts is no keyword there, or has the role of the other. -/
def Spared (behind word other back : Text) : Prop :=
  isKeywordPlace behind back = true → (∀ next ∈ back.head?, next.isOneOf "?!" = false) → SameRole word other

theorem Spared.read_eq {behind : Text} (spared : Spared behind word other back) (exchange : Exchange word other)
    (stops : ∀ next ∈ back.head?, next.isNamePart = false) (block : Block) :
    block.read behind (word ++ back) = block.read behind (other ++ back) := by
  by_cases unmarked : ∀ next ∈ back.head?, next.isOneOf "?!" = false
  · rw [exchange.name.read_eq block behind stops unmarked, exchange.otherName.read_eq block behind stops unmarked,
      exchange.size]
    by_cases place : isKeywordPlace behind back = true
    · rw [if_pos place, if_pos place, (spared place unmarked).readKeyword_eq exchange.size]
    · rw [if_neg place, if_neg place]
  · push Not at unmarked
    obtain ⟨mark, member, isMark⟩ := unmarked
    rw [Bool.ne_false_iff] at isMark
    obtain ⟨later, rfl⟩ := List.head?_eq_some_iff.mp member
    rw [exchange.name.read_marked block behind isMark, exchange.otherName.read_marked block behind isMark,
      exchange.size]

theorem Exchange.read_eq (exchange : Exchange word other) (stops : ∀ next ∈ back.head?, next.isNamePart = false)
    {behind tail : Text} (linked : Linked tail) (spared : tail = [] → Spared behind word other back) (block : Block) :
    block.read behind (tail ++ (word ++ back)) = block.read behind (tail ++ (other ++ back)) := by
  by_cases reached : tail = []
  · rw [reached]
    exact (spared reached).read_eq exchange stops block
  · exact block.read_exchange behind exchange linked reached back

/-! ### The end of the block -/

/-- No token, and no head of a method, ends inside the name. -/
theorem SmallName.outside_of_apart (name : SmallName word) {length : Nat} (starts : mid.length < length)
    (apart : Apart ((mid ++ (word ++ back)).take length).reverse ((mid ++ (word ++ back)).drop length)) :
    mid.length + word.length ≤ length := by
  by_contra inside
  obtain ⟨count, rfl⟩ := Nat.exists_eq_add_of_lt starts
  have within : count + 1 < word.length := by omega
  have taken : (word.take (count + 1)).reverse ≠ [] := by
    rw [ne_eq, List.reverse_eq_nil_iff, ← List.length_eq_zero_iff, List.length_take]
    omega
  have left : word.drop (count + 1) ≠ [] := by
    rw [ne_eq, ← List.length_eq_zero_iff, List.length_drop]
    omega
  obtain ⟨last, earlier, takenEq⟩ := List.exists_cons_of_ne_nil taken
  obtain ⟨next, later, leftEq⟩ := List.exists_cons_of_ne_nil left
  have lastPart : last.isNamePart = true := by
    apply name.parts
    apply List.mem_of_mem_take (i := count + 1)
    rw [← List.mem_reverse, takenEq]
    exact List.mem_cons_self
  have nextPart : next.isNamePart = true := by
    apply name.parts
    apply List.mem_of_mem_drop (i := count + 1)
    rw [leftEq]
    exact List.mem_cons_self
  rw [Nat.add_assoc, List.take_length_add_append, List.drop_length_add_append, List.take_append_of_le_length within.le,
    List.drop_append_of_le_length within.le, List.reverse_append, takenEq, leftEq] at apart
  rw [apart last rfl lastPart next rfl] at nextPart
  cases nextPart

/-- Behind the name the search looks only for marks, so it does not tell the names apart. -/
theorem Exchange.extent_past (exchange : Exchange word other) (block : Block) (behind : Text) {length : Nat}
    (past : mid.length + word.length ≤ length) :
    block.extent (((mid ++ (word ++ back)).take length).reverse ++ behind) ((mid ++ (word ++ back)).drop length) =
      block.extent (((mid ++ (other ++ back)).take length).reverse ++ behind)
        ((mid ++ (other ++ back)).drop length) := by
  have shape : SameShape ((mid ++ (word ++ back)).take length).reverse ((mid ++ (other ++ back)).take length).reverse :=
    List.forall₂_reverse_iff.mpr (List.forall₂_take length (exchange.shape mid back))
  have rest : (mid ++ (word ++ back)).drop length = (mid ++ (other ++ back)).drop length := by
    obtain ⟨more, rfl⟩ := Nat.exists_eq_add_of_le past
    rw [Nat.add_assoc, List.drop_length_add_append, List.drop_length_add_append, List.drop_length_add_append,
      exchange.size, List.drop_length_add_append]
  rw [rest]
  apply block.extent_congr
  intro front after
  exact ((SameShape.refl front).append (shape.append (.refl behind))).isKeywordPlace_behind after

theorem SmallName.visible (name : SmallName word) {tail : Text} (stops : ∀ next ∈ tail.head?, isFiller next = false) :
    ∀ next ∈ (tail ++ (word ++ back)).head?, isFiller next = false := by
  cases tail with
  | cons symbol others => exact stops
  | nil =>
      obtain ⟨first, run, rfl, -, part, -⟩ := name.exists_first
      intro next member
      cases member
      rw [isFiller, Bool.and_eq_false_iff]
      left
      rw [Bool.eq_false_iff]
      intro blank
      rw [isNamePart_of_isBlank blank] at part
      cases part

theorem Exchange.extent_eq (exchange : Exchange word other) (stops : ∀ next ∈ back.head?, next.isNamePart = false)
    {before : Text} (linked : Linked before.reverse) (spared : Spared before word other back) (block : Block)
    {behind mid : Text} (whole : mid.reverse ++ behind = before) :
    block.extent behind (mid ++ (word ++ back)) = block.extent behind (mid ++ (other ++ back)) := by
  -- The induction is on what is left before the name: a token shortens it, or steps over the name as well.
  induction size : mid.length using Nat.strong_induction_on generalizing block behind mid with
  | _ length ih =>
      obtain ⟨filler, tail, rfl, -, fills, visible⟩ := exists_run isFiller mid
      have some : ∀ name : Text, SmallName name → tail ++ (name ++ back) ≠ [] := by
        intro name isName
        obtain ⟨first, run, rfl, -⟩ := isName.exists_first
        simp
      have ends : before.reverse = (behind.reverse ++ filler) ++ tail := by
        rw [← whole, List.reverse_append, List.reverse_reverse, List.append_assoc]
      have linkedTail := linked.drop (behind.reverse ++ filler).length
      rw [ends, List.drop_left] at linkedTail
      have reads : block.read (filler.reverse ++ behind) (tail ++ (word ++ back)) =
          block.read (filler.reverse ++ behind) (tail ++ (other ++ back)) := by
        apply exchange.read_eq stops linkedTail _ block
        rintro rfl
        rw [List.append_nil] at whole
        rw [whole]
        exact spared
      rw [List.append_assoc, List.append_assoc, block.extent_eq behind filler _ fills (exchange.name.visible visible),
        block.extent_eq behind filler _ fills (exchange.otherName.visible visible), if_neg (some word exchange.name),
        if_neg (some other exchange.otherName), reads]
      cases reading : block.read (filler.reverse ++ behind) (tail ++ (other ++ back)) with
      | closed taken => rfl
      | goesOn next taken =>
          rw [reading] at reads
          have progress := Block.read_progress (some word exchange.name) reads
          have apart := Block.read_apart (some word exchange.name) reads []
          rw [List.append_nil] at apart
          dsimp only
          by_cases early : taken ≤ tail.length
          · have shorter : (tail.drop taken).length < (filler ++ tail).length := by
              rw [List.length_drop, List.length_append]
              omega
            have split : (tail.drop taken).reverse ++ ((tail.take taken).reverse ++ (filler.reverse ++ behind)) =
                before := by
              rw [← whole, ← List.append_assoc, ← List.reverse_append, List.take_append_drop, List.reverse_append,
                List.append_assoc]
            rw [List.take_append_of_le_length early, List.take_append_of_le_length early,
              List.drop_append_of_le_length early, List.drop_append_of_le_length early,
              ih _ (size ▸ shorter) next split rfl]
          · rw [exchange.extent_past next _ (exchange.name.outside_of_apart (Nat.lt_of_not_le early) apart)]

/-- The end of a block stays where it is if a called name after its start is exchanged, unless it is read as a keyword
of another role. -/
theorem Exchange.blockEnd_eq (exchange : Exchange word other) (stops : ∀ next ∈ back.head?, next.isNamePart = false)
    {front : Text} (linked : Linked front) (spared : Spared front.reverse word other back) {start : Nat}
    (within : start ≤ front.length) :
    blockEnd (front ++ (word ++ back)) start = blockEnd (front ++ (other ++ back)) start := by
  have size : (front ++ (word ++ back)).length = (front ++ (other ++ back)).length :=
    (exchange.shape front back).length_eq
  have extents : ∀ name : Text, blockEnd (front ++ (name ++ back)) start =
      min start (front ++ (name ++ back)).length +
        Block.opened.extent (front.take start).reverse (front.drop start ++ (name ++ back)) := by
    intro name
    rw [blockEnd, List.take_append_of_le_length within, List.drop_append_of_le_length within, Block.extent]
    congr 1
    apply Block.span_enough
    · rw [← List.drop_append_of_le_length within, List.length_drop]
      exact Nat.sub_le _ _
    · exact Nat.le_refl _
  have whole : (front.drop start).reverse ++ (front.take start).reverse = front.reverse := by
    rw [← List.reverse_append, List.take_append_drop]
  rw [← List.reverse_reverse front] at linked
  rw [extents, extents, size, exchange.extent_eq stops linked spared Block.opened whole]

/-! ### Words of one role -/

namespace SameRole

theorem refl (word : Text) : SameRole word word :=
  fun _ _ => Iff.rfl

theorem symm (role : SameRole word other) : SameRole other word :=
  fun words member => (role words member).symm

theorem trans {third : Text} (role : SameRole word other) (further : SameRole other third) : SameRole word third :=
  fun words member => (role words member).trans (further words member)

theorem of_free (free : word ∉ reservedWords) (otherFree : other ∉ reservedWords) : SameRole word other := by
  have inside : ∀ words ∈ keywordRoles, ∀ keyword ∈ words, keyword ∈ reservedWords := by decide
  intro words member
  exact iff_of_false (fun isKeyword => free (inside words member word isKeyword))
    (fun isKeyword => otherFree (inside words member other isKeyword))

end SameRole

/-- A word of the same role and length: the word itself if it is a keyword. -/
def standIn (word : Text) : Text :=
  if reservedWords.contains word then word else List.replicate word.length (.glyph 'x')

/-- What stands in for words as long as keywords. -/
def standIns : List Text :=
  reservedWords ++ (List.range' 2 5).map fun count => List.replicate count (.glyph 'x')

theorem standIn_reserved (reserved : word ∈ reservedWords) : standIn word = word :=
  if_pos (List.contains_iff_mem.mpr reserved)

theorem standIn_free (free : word ∉ reservedWords) : standIn word = List.replicate word.length (.glyph 'x') :=
  if_neg fun reserved => free (List.contains_iff_mem.mp reserved)

theorem standIn_exchange (name : SmallName word) : Exchange word (standIn word) := by
  obtain ⟨first, run, wordEq, -⟩ := name.exists_first
  by_cases reserved : word ∈ reservedWords
  · rw [standIn_reserved reserved]
    exact ⟨name, name, rfl⟩
  · rw [standIn_free reserved]
    refine ⟨name, ⟨⟨.glyph 'x', by rw [wordEq, List.length_cons, List.replicate_succ]; rfl, by decide⟩, ?_⟩,
      (List.length_replicate ..).symm⟩
    intro symbol member
    rw [(List.mem_replicate.mp member).2]
    decide

theorem standIn_role (word : Text) : SameRole word (standIn word) := by
  have differs : ∀ keyword ∈ reservedWords, ∃ symbol ∈ keyword, symbol ≠ .glyph 'x' := by decide
  by_cases reserved : word ∈ reservedWords
  · rw [standIn_reserved reserved]
    exact .refl word
  · rw [standIn_free reserved]
    apply SameRole.of_free reserved
    intro isKeyword
    obtain ⟨symbol, member, different⟩ := differs _ isKeyword
    exact different (List.mem_replicate.mp member).2

theorem standIn_mem (size : ∃ keyword ∈ reservedWords, word.length = keyword.length) : standIn word ∈ standIns := by
  have lengths : ∀ keyword ∈ reservedWords, keyword.length ∈ List.range' 2 5 := by decide
  obtain ⟨keyword, isKeyword, same⟩ := size
  by_cases reserved : word ∈ reservedWords
  · rw [standIn_reserved reserved]
    exact List.mem_append_left _ reserved
  · rw [standIn_free reserved, same]
    exact List.mem_append_right _ (List.mem_map_of_mem (lengths keyword isKeyword))

/-- Two codes tell words of different roles apart, one at the start of a statement and one after a receiver. -/
theorem role_of_blockEnd : ∀ left ∈ standIns, ∀ right ∈ standIns, left.length = right.length →
    blockEnd ("::" ++ (left ++ " if\nend\nend\nend")) 2 = blockEnd ("::" ++ (right ++ " if\nend\nend\nend")) 2 →
    blockEnd ("a::" ++ (left ++ "\nend\nend")) 0 = blockEnd ("a::" ++ (right ++ "\nend\nend")) 0 →
      SameRole left right := by
  decide +kernel

/-- Whether a block ends at the same place with either of two names between two texts, wherever it starts before
them. -/
def BlocksEndAlike (front word other back : Text) : Prop :=
  ∀ start ≤ front.length, blockEnd (front ++ (word ++ back)) start = blockEnd (front ++ (other ++ back)) start

theorem linked_append (receiver : Text) {link : Text} {last : Symbol} (ends : link.getLast? = some last)
    (isLink : last = .glyph '.' ∨ last = .glyph ':') : Linked (receiver ++ link) := by
  intro symbol member
  rw [List.getLast?_append, ends, Option.some_or] at member
  cases member
  exact isLink

theorem Exchange.alike_of_colons (exchange : Exchange word other) {receiver : Text}
    (stops : ∀ next ∈ back.head?, next.isNamePart = false)
    (spared : Spared (receiver ++ "::").reverse word other back) :
    BlocksEndAlike (receiver ++ "::") word other back := by
  intro start within
  have linked : Linked (receiver ++ "::") := linked_append receiver rfl (Or.inr rfl)
  exact exchange.blockEnd_eq stops linked spared within

theorem Exchange.alike_of_role (exchange : Exchange word other) (role : SameRole word other) (receiver : Text)
    (stops : ∀ next ∈ back.head?, next.isNamePart = false) : BlocksEndAlike (receiver ++ "::") word other back :=
  exchange.alike_of_colons stops fun _ _ => role

/-- Words after which blocks end alike in all codes have the same role. -/
theorem Exchange.role_of_alike (exchange : Exchange word other)
    (alike : ∀ receiver back : Text, (∀ next ∈ back.head?, next.isNamePart = false) →
      BlocksEndAlike (receiver ++ "::") word other back) : SameRole word other := by
  by_cases free : word ∉ reservedWords ∧ other ∉ reservedWords
  · exact .of_free free.1 free.2
  · have size : ∃ keyword ∈ reservedWords, word.length = keyword.length := by
      by_cases reserved : word ∈ reservedWords
      · exact ⟨word, reserved, rfl⟩
      · have otherReserved : other ∈ reservedWords := by
          by_contra otherFree
          exact free ⟨reserved, otherFree⟩
        exact ⟨other, otherReserved, exchange.size⟩
    have stand := standIn_exchange exchange.name
    have otherStand := standIn_exchange exchange.otherName
    have same : ∀ receiver back : Text, (∀ next ∈ back.head?, next.isNamePart = false) →
        BlocksEndAlike (receiver ++ "::") (standIn word) (standIn other) back := by
      intro receiver back stops start within
      rw [← stand.alike_of_role (standIn_role word) receiver stops start within, alike receiver back stops start within,
        otherStand.alike_of_role (standIn_role other) receiver stops start within]
    have standSize : (standIn word).length = (standIn other).length := by
      rw [← stand.size, ← otherStand.size, exchange.size]
    have role := role_of_blockEnd _ (standIn_mem size) _ (standIn_mem (exchange.size ▸ size)) standSize
      (same [] " if\nend\nend\nend" (by decide) 2 (by decide)) (same "a" "\nend\nend" (by decide) 0 (by decide))
    exact (standIn_role word).trans (role.trans (standIn_role other).symm)

end AccessorLint.Source

namespace AccessorLint

open Source

/-- A method's name after a dot never counts for the end of a block.  After a double colon it does not if it ends in a
mark or is followed by a colon; otherwise it is read as a keyword, so that two names count alike in all codes exactly if
they are keywords of the same role, or none. -/
theorem exchanged_call_moves_no_block_end_exactly_if_same_role {word other : Text} (exchange : Exchange word other) :
    (∀ receiver back : Text, receiver.getLast? ≠ some (.glyph '.') →
      (∀ next ∈ back.head?, next.isNamePart = false) → BlocksEndAlike (receiver ++ ".") word other back) ∧
    (∀ receiver back : Text, ((∃ mark ∈ back.head?, mark.isOneOf "?!" = true) ∨
      back.head? = some (.glyph ':') ∧ (back.drop 1).head? ≠ some (.glyph ':')) →
        BlocksEndAlike (receiver ++ "::") word other back) ∧
    ((∀ receiver back : Text, (∀ next ∈ back.head?, next.isNamePart = false) →
      BlocksEndAlike (receiver ++ "::") word other back) ↔ SameRole word other) := by
  refine ⟨?_, ?_, ?_⟩
  · intro receiver back single stops start within
    have spared : Spared (receiver ++ ".").reverse word other back := by
      intro place
      rw [isKeywordPlace_dot single] at place
      cases place
    exact exchange.blockEnd_eq stops (linked_append receiver rfl (Or.inl rfl)) spared within
  · rintro receiver back (⟨mark, member, isMark⟩ | single)
    · apply exchange.alike_of_colons
      · intro next isNext
        rw [Option.mem_unique isNext member]
        exact isNamePart_of_isOneOf (by simp; decide) isMark
      · intro _ unmarked
        rw [unmarked mark member] at isMark
        cases isMark
    · apply exchange.alike_of_colons
      · intro next isNext
        rw [Option.mem_unique isNext single.1]
        decide
      · intro place
        rw [isKeywordPlace_colon _ single] at place
        cases place
  · exact ⟨exchange.role_of_alike, fun role receiver _ stops => exchange.alike_of_role role receiver stops⟩

theorem dotted_class_moves_no_block_end :
    Exchange "class" "other" ∧ BlocksEndAlike ("self" ++ ".") "class" "other" "\nend\n" ∧
      BlocksEndAlike ("self" ++ "::") "class" "other" "?\nend\n" := by
  have exchange : Exchange "class" "other" := ⟨⟨by decide, by decide⟩, ⟨by decide, by decide⟩, rfl⟩
  obtain ⟨dotted, marked, -⟩ := exchanged_call_moves_no_block_end_exactly_if_same_role exchange
  exact ⟨exchange, dotted "self" "\nend\n" (by decide) (by decide), marked "self" "?\nend\n" (by decide)⟩

/-- After a double colon `class` opens a block, so the `end` below closes that one. -/
theorem scoped_class_opens_block :
    blockEnd ("self::" ++ ("class" ++ "\nend\n")) 0 = 16 ∧ blockEnd ("self::" ++ ("other" ++ "\nend\n")) 0 = 15 := by
  decide +kernel

end AccessorLint
