import Mathlib
import AccessorLint.Proofs.Occurrences
import AccessorLint.Proofs.Structure
set_option autoImplicit false

/-!
Renaming accessors keeps the requests that a text sends.

The patterns that come with the linter match raw text, also in the heads of methods.  But a match that meets the name of
an accessor can only be that of a receiver and `get`, as in `def connection.get_x`, and then the accessor itself counts
as a request and is not renamed.  All other matches lie beside the names, and stay.
-/

namespace AccessorLint.Naming

open AccessorLint.Source (IsIdentifier isGap exists_run takeWhile_run dropWhile_run isWord_of_isGap)
open AccessorLint.Pattern (Regex)

/-! ### Where a word meets a name -/

/-- A word that stands in a text lies before a part of it, lies after it, starts inside, or passes over its start. -/
theorem word_cases {front part back left word right : Text}
    (split : front ++ (part ++ back) = left ++ (word ++ right)) :
    (∃ more, front = left ++ (word ++ more)) ∨
      (∃ more, left = front ++ (part ++ more) ∧ back = more ++ (word ++ right)) ∨
      (∃ head tail, part = head ++ tail ∧ left = front ++ head ∧ tail ++ back = word ++ right) ∨
      ∃ head tail, head ≠ [] ∧ tail ≠ [] ∧ word = head ++ tail ∧ front = left ++ head ∧
        part ++ back = tail ++ right := by
  rcases List.append_eq_append_iff.mp split with ⟨head, leftEq, later⟩ | ⟨head, frontEq, later⟩
  · rcases List.append_eq_append_iff.mp later with ⟨more, headEq, backEq⟩ | ⟨tail, partEq, wordEq⟩
    · exact Or.inr (Or.inl ⟨more, by rw [leftEq, headEq], backEq⟩)
    · exact Or.inr (Or.inr (Or.inl ⟨head, tail, partEq, leftEq, wordEq.symm⟩))
  · rcases List.append_eq_append_iff.mp later with ⟨more, headEq, -⟩ | ⟨tail, wordEq, partEq⟩
    · exact Or.inl ⟨more, by rw [frontEq, headEq]⟩
    · by_cases started : head = []
      · rw [started, List.append_nil] at frontEq
        rw [started, List.nil_append] at wordEq
        exact Or.inr (Or.inr (Or.inl ⟨[], part, rfl, by rw [frontEq, List.append_nil], by rw [partEq, wordEq]⟩))
      · by_cases ended : tail = []
        · rw [ended, List.append_nil] at wordEq
          exact Or.inl ⟨[], by rw [frontEq, wordEq, List.append_nil]⟩
        · exact Or.inr (Or.inr (Or.inr ⟨head, tail, started, ended, wordEq, frontEq, partEq⟩))

/-- The name of an accessor where it stands in the head of a method. -/
structure Headed (front name back : Text) : Prop where
  before : ∃ last ∈ front.getLast?, isGap last = true ∨ last = .glyph '.'
  after : ∃ next ∈ back.head?, isGap next = true ∨ next = .glyph '('
  identifier : IsIdentifier name
  starts : getStart <+: name ∨ setStart <+: name

variable {front name back : Text}

theorem Headed.take_three (headed : Headed front name back) : (name ++ back).take 3 = name.take 3 := by
  have long : 3 ≤ name.length := by
    rcases headed.starts with start | start <;> exact Nat.le_of_succ_le start.length_le
  exact List.take_append_of_le_length long

/-- The first symbols of what starts with the name are those of `get_` or `set_`. -/
theorem Headed.take_four (headed : Headed front name back) {tail right : Text} (same : name ++ back = tail ++ right) :
    tail.take 4 <+: getStart ∨ tail.take 4 <+: setStart := by
  have ofStart : ∀ {start : Text}, start.length = 4 → start <+: name → tail.take 4 <+: start := by
    intro start four starts
    refine List.prefix_of_prefix_length_le ((List.take_prefix 4 tail).trans (List.prefix_append tail right)) ?_ ?_
    · rw [← same]
      exact starts.trans (List.prefix_append _ _)
    · rw [four]
      exact List.length_take_le 4 tail
  exact headed.starts.imp (ofStart rfl) (ofStart rfl)

/-- A word does not start inside a name if its first mark is neither a gap nor a parenthesis. -/
theorem Headed.not_inside (headed : Headed front name back) {head tail word right : Text} (split : name = head ++ tail)
    (breaks : (word.dropWhile Symbol.isWord).head?.any (fun mark => !isGap mark && mark != .glyph '(') = true) :
    tail ++ back ≠ word ++ right := by
  intro same
  obtain ⟨next, isNext, opens⟩ := headed.after
  have words : ∀ symbol ∈ tail, symbol.isWord = true :=
    fun symbol member => headed.identifier.words symbol (split ▸ List.mem_append_right _ member)
  obtain ⟨run, later, rfl, -, inRun, stops⟩ := exists_run Symbol.isWord word
  rw [dropWhile_run inRun stops] at breaks
  cases later with
  | nil => cases breaks
  | cons mark others =>
      -- the name and the word go on with the same mark
      have taken := congrArg (List.takeWhile Symbol.isWord) same
      rw [takeWhile_run words, List.append_assoc, takeWhile_run inRun] at taken
      · rw [taken, List.append_assoc] at same
        rw [List.append_cancel_left same] at isNext
        cases isNext
        rcases opens with gap | rfl
        · simp [gap] at breaks
        · simp at breaks
      · intro symbol member
        cases member
        exact stops mark rfl
      · intro symbol member
        rw [isNext] at member
        cases member
        rcases opens with gap | rfl
        · exact isWord_of_isGap gap
        · decide

/-! ### Requests in the form of words -/

/-- The words that tell a request. -/
def requestWords : List Text := [
  ".get(", "connection.get", "HTTP.get", "RestClient.get", "Faraday.get", "Net::HTTP.get", "Net::HTTP::Get.new",
  "Net::HTTP::Get", "http.request", "https.request", "Net::HTTP.new"]

/-- A word that tells a request stays, unless it ends with the first symbols of the name. -/
theorem Headed.word_kept (headed : Headed front name back) {word : Text} (member : word ∈ requestWords)
    (quiet : ¬word <:+ front ++ name.take 3) (newName : Text) (found : word <:+: front ++ (name ++ back)) :
    word <:+: front ++ (newName ++ back) := by
  have breaks : ∀ word ∈ requestWords,
      (word.dropWhile Symbol.isWord).head?.any (fun mark => !isGap mark && mark != .glyph '(') = true := by decide
  have crosses : ∀ word ∈ requestWords, ∀ length ∈ List.range word.length,
      ((word.take length).getLast?.any fun last => isGap last || last == .glyph '.') = true →
      (((word.drop length).take 4).isPrefixOf getStart || ((word.drop length).take 4).isPrefixOf setStart) = true →
      word.drop length = "get" := by decide
  obtain ⟨left, right, same⟩ := found
  rw [List.append_assoc] at same
  rcases word_cases same.symm with
    ⟨more, rfl⟩ | ⟨more, -, rfl⟩ | ⟨head, tail, split, -, inside⟩ | ⟨head, tail, begun, ended, rfl, frontEq, across⟩
  · exact ⟨left, more ++ (newName ++ back), by simp⟩
  · exact ⟨front ++ (newName ++ more), right, by simp⟩
  · exact absurd inside (headed.not_inside split (breaks word member))
  · exfalso
    obtain ⟨last, isLast, gapOrDot⟩ := headed.before
    have shorter : head.length ∈ List.range (head ++ tail).length := by
      have positive := List.length_pos_iff.mpr ended
      rw [List.mem_range, List.length_append]
      omega
    have tailEq := crosses _ member head.length shorter
    rw [List.take_left, List.drop_left] at tailEq
    have isGet : tail = "get" := by
      apply tailEq
      · have headLast : head.getLast? = some last := by
          rw [frontEq, List.getLast?_append_of_ne_nil _ begun] at isLast
          exact isLast
        rw [headLast]
        simpa using gapOrDot
      · rw [Bool.or_eq_true, List.isPrefixOf_iff_prefix, List.isPrefixOf_iff_prefix]
        exact headed.take_four across
    refine quiet ⟨left, ?_⟩
    have three := headed.take_three
    rw [across, isGet] at three
    rw [← three, frontEq, isGet, List.append_assoc]
    rfl

/-! ### Requests in the form of calls -/

/-- The name is not the word of a call of `get`. -/
theorem Headed.not_call (headed : Headed front name back) {run right : Text}
    (blanks : ∀ symbol ∈ run, symbol.isBlank = true) :
    name ++ back ≠ (Text.ofString "get" ++ (run ++ [Symbol.glyph '('])) ++ right := by
  intro same
  have four := headed.take_four same
  cases run with
  | nil => revert four; decide
  | cons symbol others =>
      obtain rfl : symbol = .glyph '_' := by
        rcases four with ⟨more, start⟩ | ⟨more, start⟩
        · have fourth := congrArg (fun text : Text => text[3]?) start
          simpa [Text.ofString, getStart] using fourth
        · simp [Text.ofString, setStart] at start
      cases blanks (.glyph '_') (List.mem_cons_self ..)

/-- The name does not start in a call of `get` after the first symbol. -/
theorem Headed.not_later (headed : Headed front name back) {run head tail right : Text}
    (blanks : ∀ symbol ∈ run, symbol.isBlank = true) (split : "et" ++ (run ++ [Symbol.glyph '(']) = head ++ tail)
    (nonempty : tail ≠ []) : name ++ back ≠ tail ++ right := by
  intro same
  cases tail with
  | nil => exact nonempty rfl
  | cons first others =>
      have isFirst : first = .glyph 'g' ∨ first = .glyph 's' := by
        rcases headed.starts with ⟨more, rfl⟩ | ⟨more, rfl⟩
        · exact Or.inl (List.cons.inj same).1.symm
        · exact Or.inr (List.cons.inj same).1.symm
      have member : first ∈ "et" ++ (run ++ [Symbol.glyph '(']) := by
        rw [split]
        exact List.mem_append_right _ (List.mem_cons_self ..)
      rcases List.mem_append.mp member with inWord | later
      · rcases isFirst with rfl | rfl <;> revert inWord <;> decide
      · rcases List.mem_append.mp later with inRun | isOpening
        · rcases isFirst with rfl | rfl <;> cases blanks _ inRun
        · rcases isFirst with rfl | rfl <;> revert isOpening <;> decide

/-- A call of `get` on a receiver stays. -/
theorem Headed.call_kept (headed : Headed front name back) (newName : Text)
    (found : Regex.occursIn ⟨.sequence (.literal ".get") (.sequence .blanks (.literal "(")), false⟩
      (front ++ (name ++ back)) = true) :
    Regex.occursIn ⟨.sequence (.literal ".get") (.sequence .blanks (.literal "(")), false⟩
      (front ++ (newName ++ back)) = true := by
  obtain ⟨left, run, right, same, blanks⟩ := Regex.occursIn_call.mp found
  have regrouped : left ++ (".get" ++ (run ++ .glyph '(' :: right)) =
      left ++ ((Text.ofString ".get" ++ (run ++ [Symbol.glyph '('])) ++ right) := by simp
  rw [regrouped] at same
  rw [Regex.occursIn_call]
  rcases word_cases same with
    ⟨more, rfl⟩ | ⟨more, -, rfl⟩ | ⟨head, tail, split, -, inside⟩ | ⟨head, tail, begun, ended, wordEq, frontEq, across⟩
  · exact ⟨left, run, more ++ (newName ++ back), by simp, blanks⟩
  · exact ⟨front ++ (newName ++ more), run, right, by simp, blanks⟩
  · exact absurd inside (headed.not_inside split rfl)
  · exfalso
    cases head with
    | nil => exact begun rfl
    | cons dot head =>
        have later : Text.ofString "get" ++ (run ++ [Symbol.glyph '(']) = head ++ tail := (List.cons.inj wordEq).2
        cases head with
        | nil =>
            rw [← List.nil_append tail, ← later] at across
            exact headed.not_call blanks across
        | cons first head => exact headed.not_later blanks (List.cons.inj later).2 ended across

/-- A call of `get` that starts a word stays. -/
theorem Headed.edge_call_kept (headed : Headed front name back) (newName : Text)
    (found : Regex.occursIn ⟨.sequence (.anchor (.wordEdge true)) (.sequence (.literal "get")
      (.sequence .blanks (.literal "("))), false⟩ (front ++ (name ++ back)) = true) :
    Regex.occursIn ⟨.sequence (.anchor (.wordEdge true)) (.sequence (.literal "get")
      (.sequence .blanks (.literal "("))), false⟩ (front ++ (newName ++ back)) = true := by
  have isWord : (Text.ofString "get").head?.any Symbol.isWord = true := by decide
  obtain ⟨left, run, right, same, blanks, edge⟩ := (Regex.occursIn_edge_call isWord).mp found
  have regrouped : left ++ ("get" ++ (run ++ .glyph '(' :: right)) =
      left ++ ((Text.ofString "get" ++ (run ++ [Symbol.glyph '('])) ++ right) := by simp
  rw [regrouped] at same
  rw [Regex.occursIn_edge_call isWord]
  rcases word_cases same with
    ⟨more, rfl⟩ | ⟨more, rfl, rfl⟩ | ⟨head, tail, split, rfl, inside⟩ |
      ⟨head, tail, begun, ended, wordEq, frontEq, across⟩
  · exact ⟨left, run, more ++ (newName ++ back), by simp, blanks, edge⟩
  · refine ⟨front ++ (newName ++ more), run, right, by simp, blanks, ?_⟩
    have nonempty : more ≠ [] := by
      rintro rfl
      obtain ⟨next, isNext, opens⟩ := headed.after
      cases isNext
      rcases opens with gap | opening
      · cases gap
      · cases opening
    rw [← List.append_assoc, List.getLast?_append_of_ne_nil _ nonempty] at edge ⊢
    exact edge
  · exfalso
    by_cases started : head = []
    · rw [started, List.nil_append] at split
      rw [← split] at inside
      exact headed.not_call blanks inside
    · -- inside the name there is no edge
      obtain ⟨others, last, rfl⟩ := (List.eq_nil_or_concat' head).resolve_left started
      rw [← List.append_assoc, List.getLast?_concat] at edge
      have word := headed.identifier.words last (by simp [split])
      rw [Option.any_some, word] at edge
      cases edge
  · exfalso
    cases head with
    | nil => exact begun rfl
    | cons first head => exact headed.not_later blanks (List.cons.inj wordEq).2 ended across

/-! ### All requests -/

/-- Whether every request in a text is also in another one, by the patterns that come with the linter. -/
def KeepsRequests (text out : Text) : Prop :=
  (PatternSets.default.sendsGetRequest text = true → PatternSets.default.sendsGetRequest out = true) ∧
    (PatternSets.default.callsGet text = true → PatternSets.default.callsGet out = true)

theorem Headed.keepsRequests (headed : Headed front name back)
    (quiet : ∀ word ∈ requestWords, ¬word <:+ front ++ name.take 3) (newName : Text) :
    KeepsRequests (front ++ (name ++ back)) (front ++ (newName ++ back)) := by
  have forms : ∀ regex ∈ PatternSets.default.httpGet, (∃ word ∈ requestWords, regex = .literal word) ∨
      regex = ⟨.sequence (.literal ".get") (.sequence .blanks (.literal "(")), false⟩ := by decide
  constructor
  · intro sends
    obtain ⟨regex, member, found⟩ := List.any_eq_true.mp sends
    refine List.any_eq_true.mpr ⟨regex, member, ?_⟩
    rcases forms regex member with ⟨word, inWords, rfl⟩ | rfl
    · rw [Regex.occursIn_literal] at found ⊢
      exact headed.word_kept inWords (quiet word inWords) newName found
    · exact headed.call_kept newName found
  · intro calls
    obtain ⟨regex, member, found⟩ := List.any_eq_true.mp calls
    refine List.any_eq_true.mpr ⟨regex, member, ?_⟩
    obtain rfl := List.mem_singleton.mp member
    exact headed.edge_call_kept newName found

theorem KeepsRequests.refl (text : Text) : KeepsRequests text text :=
  ⟨fun sends => sends, fun calls => calls⟩

theorem KeepsRequests.trans {first second third : Text} (before : KeepsRequests first second)
    (after : KeepsRequests second third) : KeepsRequests first third :=
  ⟨fun sends => after.1 (before.1 sends), fun calls => after.2 (before.2 calls)⟩

/-! ### Renamings -/

/-- Whether an edit takes a word that starts like an accessor, and no request ends with its first symbols. -/
structure Silent (text : Text) (edit : Edit) : Prop where
  proper : 0 ≤ edit.start
  long : edit.start + 4 ≤ edit.stop
  starts : getStart <+: text.drop edit.start.toNat ∨ setStart <+: text.drop edit.start.toNat
  word : ∀ last ∈ (text.take edit.stop.toNat).getLast?, last.isWord = true
  quiet : ∀ word ∈ requestWords, ¬word <:+ text.take (edit.start.toNat + 3)

/-- What comes after the name does not matter. -/
theorem Silent.of_append {near far : Text} {edit : Edit} (silent : Silent (near ++ far) edit)
    (within : edit.stop.toNat ≤ near.length) (other : Text) : Silent (near ++ other) edit := by
  have proper := silent.proper
  have long := silent.long
  have dropped : ∀ far : Text, (near ++ far).drop edit.start.toNat = near.drop edit.start.toNat ++ far :=
    fun far => List.drop_append_of_le_length (by omega)
  have taken : ∀ (length : Nat) (far : Text), length ≤ near.length → (near ++ far).take length = near.take length :=
    fun length far inside => List.take_append_of_le_length inside
  have kept : ∀ start : Text, start.length = 4 → start <+: (near ++ far).drop edit.start.toNat →
      start <+: (near ++ other).drop edit.start.toNat := by
    intro start four begins
    rw [dropped] at begins ⊢
    have inNear : start <+: near.drop edit.start.toNat := by
      apply List.prefix_of_prefix_length_le begins (List.prefix_append _ _)
      rw [four, List.length_drop]
      omega
    exact inNear.trans (List.prefix_append _ _)
  constructor
  · exact proper
  · exact long
  · exact silent.starts.imp (kept getStart rfl) (kept setStart rfl)
  · have word := silent.word
    rw [taken _ _ within] at word ⊢
    exact word
  · intro word member
    have quiet := silent.quiet word member
    rw [taken _ _ (by omega)] at quiet ⊢
    exact quiet

/-- A word that ends a text does not reach back over a symbol that it has not. -/
theorem suffix_of_not_mem {word front others : Text} {symbol : Symbol} (absent : symbol ∉ word)
    (ends : word <:+ front ++ symbol :: others) : word <:+ others := by
  have tail : others <:+ front ++ symbol :: others := (List.suffix_cons symbol others).trans (List.suffix_append _ _)
  rcases Nat.lt_or_ge others.length word.length with longer | shorter
  · have reaches : symbol :: others <:+ word :=
      List.suffix_of_suffix_length_le (List.suffix_append _ _) ends (Nat.succ_le_of_lt longer)
    exact absurd (reaches.subset (List.mem_cons_self ..)) absent
  · exact List.suffix_of_suffix_length_le ends tail shorter

/-- The start of a name is not cut off by what follows the name. -/
theorem prefix_of_words {start name back : Text} (words : ∀ symbol ∈ start, symbol.isWord = true)
    (stops : ∀ next ∈ back.head?, next.isWord = false) (begins : start <+: name ++ back) : start <+: name := by
  rcases Nat.le_total start.length name.length with within | beyond
  · exact List.prefix_of_prefix_length_le begins (List.prefix_append _ _) within
  · obtain ⟨more, rfl⟩ := List.prefix_of_prefix_length_le (List.prefix_append name back) begins beyond
    obtain ⟨rest, backEq⟩ := (List.prefix_append_right_inj name).mp begins
    cases more with
    | nil =>
        rw [List.append_nil]
    | cons next others =>
        have outside := stops next (by rw [← backEq]; rfl)
        rw [words next (by simp)] at outside
        cases outside

theorem gap_not_mem_requestWords {gap : Symbol} (space : isGap gap = true) {word : Text} (member : word ∈ requestWords) :
    gap ∉ word := by
  have none : ∀ word ∈ requestWords, ∀ symbol ∈ word, isGap symbol = false := by decide
  intro inside
  rw [none word member gap inside] at space
  cases space

end AccessorLint.Naming

namespace AccessorLint

open Naming (KeepsRequests Headed Silent requestWords getStart setStart)
open Source (Definition IsIdentifier Lead Ordinary Slot blank isGap)

variable {slot : Slot} {text out old : Text} {edit : Edit} {edits : List Edit}

/-! ### Renamings keep requests -/

theorem Source.Slot.back_not_isWord (slot : Slot) : ∀ next ∈ slot.back.head?, next.isWord = false := by
  intro next member
  exact (Bool.or_eq_false_iff.mp (slot.back_stops next member)).1

/-- The name that a silent edit takes is an identifier. -/
theorem Source.Slot.Takes.identifier (takes : slot.Takes text old edit) (silent : Silent text edit) :
    IsIdentifier old := by
  cases takes.ordinary with
  | word identifier free => exact identifier
  | @assignment word identifier =>
      have stop : edit.stop.toNat = (slot.front ++ (word ++ "=")).length := by
        rw [takes.stop, @List.length_append _ slot.front]
        rfl
      have taken : text.take edit.stop.toNat = (slot.front ++ word) ++ [.glyph '='] := by
        rw [stop, takes.fill, Slot.fill, ← List.append_assoc slot.front (word ++ _), List.take_left, ← List.append_assoc]
        rfl
      have isWord := silent.word (.glyph '=') (by rw [taken, List.getLast?_concat]; rfl)
      cases isWord

theorem Source.Slot.Takes.starts (takes : slot.Takes text old edit) (silent : Silent text edit) :
    getStart <+: old ∨ setStart <+: old := by
  have dropped : text.drop edit.start.toNat = old ++ slot.back := by
    rw [takes.start, takes.fill, Int.toNat_natCast, Slot.fill, List.drop_left]
  have starts := silent.starts
  rw [dropped] at starts
  exact starts.imp (Naming.prefix_of_words (by decide) slot.back_not_isWord)
    (Naming.prefix_of_words (by decide) slot.back_not_isWord)

/-- Wherever the head of a slot stands, a silent edit keeps the requests around it. -/
theorem Source.Slot.Takes.keepsRequests (takes : slot.Takes text old edit) (silent : Silent text edit)
    (front below : Text) :
    KeepsRequests ((front ++ (Text.ofString "def" ++ slot.lead)) ++ (old ++ (slot.gaps ++ Symbol.glyph '(' :: below)))
      ((front ++ (Text.ofString "def" ++ slot.lead)) ++ (edit.text ++ (slot.gaps ++ Symbol.glyph '(' :: below))) := by
  have headed : Headed (front ++ (Text.ofString "def" ++ slot.lead)) old (slot.gaps ++ Symbol.glyph '(' :: below) := by
    constructor
    · obtain ⟨others, last, leadEq, isLast⟩ := slot.isLead.last
      refine ⟨last, ?_, isLast⟩
      rw [leadEq, ← List.append_assoc, ← List.append_assoc, List.getLast?_concat]
      rfl
    · cases gaps : slot.gaps with
      | nil => exact ⟨.glyph '(', rfl, Or.inr rfl⟩
      | cons gap others => exact ⟨gap, rfl, Or.inl (slot.gapsGaps gap (by simp [gaps]))⟩
    · exact takes.identifier silent
    · exact takes.starts silent
  apply headed.keepsRequests
  intro word member ends
  -- a word without gaps that ends here lies behind the first gap of the lead, so it ends in the text too
  obtain ⟨gap, others, leadEq, space⟩ := slot.isLead.head
  have absent := Naming.gap_not_mem_requestWords space member
  have long : 3 ≤ old.length := by
    rcases takes.starts silent with start | start <;> exact Nat.le_of_succ_le start.length_le
  have regrouped : front ++ (Text.ofString "def" ++ slot.lead) ++ old.take 3 =
      (front ++ Text.ofString "def") ++ gap :: (others ++ old.take 3) := by simp [leadEq]
  rw [regrouped] at ends
  have near := Naming.suffix_of_not_mem absent ends
  have taken : text.take (edit.start.toNat + 3) = slot.front ++ old.take 3 := by
    rw [takes.start, takes.fill, Int.toNat_natCast, Slot.fill, List.take_length_add_append,
      List.take_append_of_le_length long]
  apply silent.quiet word member
  rw [taken, Slot.front, leadEq]
  refine near.trans ⟨slot.left ++ (Text.ofString "def" ++ [gap]), ?_⟩
  simp

/-- After silent renamings every definition has the requests that it had. -/
theorem Retitled.keepsRequests (retitled : Retitled text edits out)
    (apart : edits.Pairwise fun first second => first.stop ≤ second.start)
    (silent : ∀ edit ∈ edits, Silent text edit) (path : Text) :
    List.Forall₂ (fun first second : Definition =>
        KeepsRequests (first.declared text path).sourceText (second.declared out path).sourceText)
      (Definition.all (blank text)) (Definition.all (blank out)) := by
  induction retitled with
  | nil text => exact List.forall₂_same.mpr fun definition member => .refl _
  | @concat slot text old out edit edits takes before later ih =>
      have here := silent edit (by simp)
      obtain ⟨apartBefore, -, ordered⟩ := List.pairwise_append.mp apart
      have moved := slot.definitions_fill takes.ordinary takes.renames takes.visible
      rw [← takes.fill] at moved
      have rest : ∀ other ∈ edits, Silent (slot.fill edit.text) other := by
        intro other member
        have silentOther := silent other (by simp [member])
        have stops := ordered other member edit (by simp)
        rw [takes.start] at stops
        rw [takes.fill] at silentOther
        exact silentOther.of_append (by omega) (edit.text ++ slot.back)
      refine forall₂_compose ?_ moved (ih apartBefore rest)
      intro first second third member movedHere there
      refine KeepsRequests.trans ?_ there
      have source := movedHere.sourceText path
      rw [← takes.fill] at source
      rcases source with same | ⟨front, below, firstEq, secondEq⟩
      · rw [same]
        exact .refl _
      · rw [firstEq, secondEq]
        exact takes.keepsRequests here front below

end AccessorLint
