import Mathlib
import AccessorLint.Proofs.Placement
import AccessorLint.Proofs.Requests
import AccessorLint.Proofs.Segments
set_option autoImplicit false

/-!
Correction reaches a fixed point.

A pass renames all accessors that it finds at once.  Each loses one part that is `get` or `set`, and no method that was
left alone is found afterwards, since the requests for which it was left alone are still there.  So the parts of each
name bound the passes, however many names there are, and a text that has been corrected stays as it is.
-/

namespace AccessorLint

open Naming (KeepsRequests NamingRule PatternSets Renaming Silent canRename getStart requestWords setStart suggestions)
open Source (Declaration Definition Slot blank)
open Pattern (Regex)

/-! ### Parts of names -/

/-- The number of parts of a name between underscores that are `get` or `set`. -/
def accessorParts (name : Text) : Nat :=
  (Text.split (.glyph '_') name).countP fun part => accessorWords.contains part

theorem accessorParts_append (left right : Text) :
    accessorParts (left ++ .glyph '_' :: right) = accessorParts left + accessorParts right := by
  unfold accessorParts
  rw [Text.split_append_cons, List.countP_append]

theorem accessorParts_of_not_mem {part : Text} (whole : .glyph '_' ∉ part) :
    accessorParts part = if accessorWords.contains part then 1 else 0 := by
  unfold accessorParts
  rw [Text.split_of_not_mem whole, List.countP_singleton]

/-- A name with a mark at its end has no more parts than the name. -/
theorem accessorParts_equals (name : Text) : accessorParts (name ++ "=") ≤ accessorParts name := by
  have marked : ∀ part : Text, .glyph '_' ∉ part → accessorParts (part ++ "=") = 0 := by
    intro part whole
    have stillWhole : .glyph '_' ∉ part ++ Text.ofString "=" := by
      rw [List.mem_append, not_or]
      exact ⟨whole, by decide⟩
    have other : accessorWords.contains (part ++ "=") = false := by
      rw [Bool.eq_false_iff]
      intro found
      have unmarked : ∀ word ∈ accessorWords, .glyph '=' ∉ word := by decide
      apply unmarked _ (List.contains_iff_mem.mp found)
      exact List.mem_append_right _ (List.mem_singleton.mpr rfl)
    rw [accessorParts_of_not_mem stillWhole, other]
    rfl
  by_cases divided : .glyph '_' ∈ name
  · -- only the last part is marked
    obtain ⟨last, front, same, whole⟩ := List.eq_append_cons_of_mem (List.mem_reverse.mpr divided)
    have nameEq : name = front.reverse ++ .glyph '_' :: last.reverse := by
      rw [← List.reverse_reverse name, same]
      simp
    rw [nameEq, List.append_assoc, List.cons_append, accessorParts_append, accessorParts_append,
      marked last.reverse (by simpa using whole)]
    omega
  · rw [marked name divided]
    exact Nat.zero_le _

/-- A renaming takes a part away. -/
theorem Naming.Renaming.parts {name newName : Text} (renames : Renaming name newName) :
    accessorParts newName + 1 ≤ accessorParts name := by
  have started : ∀ start rest : Text, .glyph '_' ∉ start → accessorWords.contains start = true →
      accessorParts (start ++ .glyph '_' :: rest) = 1 + accessorParts rest := by
    intro start rest whole word
    rw [accessorParts_append, accessorParts_of_not_mem whole, if_pos word]
  cases renames with
  | getter rest =>
      have before : accessorParts (getStart ++ rest) = 1 + accessorParts rest :=
        started "get" rest (by decide) (by decide)
      have after : accessorParts (rest ++ "_for") = accessorParts rest + accessorParts "for" :=
        accessorParts_append rest "for"
      have none : accessorParts "for" = 0 := by decide
      omega
  | setter rest =>
      have before : accessorParts (setStart ++ rest) = 1 + accessorParts rest :=
        started "set" rest (by decide) (by decide)
      have after := accessorParts_equals rest
      omega
  | apiSetter rest =>
      have before : accessorParts (setStart ++ rest) = 1 + accessorParts rest :=
        started "set" rest (by decide) (by decide)
      have after : accessorParts ("create_" ++ rest) = accessorParts "create" + accessorParts rest :=
        accessorParts_append "create" rest
      have none : accessorParts "create" = 0 := by decide
      omega

/-! ### All that can be corrected is -/

/-- Whether a rule would rename a method. -/
structure Naming.NamingRule.Renames (rule : NamingRule) (declaration : Declaration) : Prop where
  found : rule.outcome declaration ≠ .skip
  renamable : canRename declaration.name = true

theorem violation_of_renames {rule : NamingRule} {lines : Option (List Text)} {declaration : Declaration}
    {result : Option Violation} (corrects : rule.corrects = true) (renames : rule.Renames declaration)
    (made : rule.violation? lines declaration = .ok result) :
    ∃ violation, result = some violation ∧
      violation.correction = some [NamingRule.nameEdit declaration (rule.newName declaration)] := by
  simp only [NamingRule.violation?, NamingRule.finding?, if_neg renames.found] at made
  cases violated : Finding.violation rule.profile (lines.getD []) _ with
  | error error =>
      rw [violated] at made
      cases made
  | ok violation =>
      rw [violated] at made
      cases made
      obtain ⟨-, -, -, correction⟩ := Finding.violation_takes violated
      refine ⟨violation, rfl, ?_⟩
      rw [correction]
      simp only [NamingRule.correction, corrects, renames.renamable, Bool.and_self, if_true,
        head?_suggestions renames.found, Option.map_some]

/-- A rule that corrects, and does not fail, corrects every method that it would rename. -/
theorem check_complete {rule : NamingRule} {path text : Text} {lines : List Text} {violations : List Violation}
    (checked : rule.check path text lines [] = .ok violations) (corrects : rule.corrects = true)
    {declaration : Declaration} (member : declaration ∈ Declaration.scan text path)
    (renames : rule.Renames declaration) :
    ∃ violation ∈ violations.filter Violation.isCorrectable,
      violation.correction = some [NamingRule.nameEdit declaration (rule.newName declaration)] := by
  simp only [NamingRule.check] at checked
  obtain ⟨found, mapped, finish⟩ := bind_eq_ok checked
  rw [← Except.ok.inj finish]
  obtain ⟨result, inFound, made⟩ := exists_of_mapM mapped (List.mem_filter.mpr ⟨member, rfl⟩)
  obtain ⟨violation, rfl, correction⟩ := violation_of_renames corrects renames made
  refine ⟨violation, List.mem_filter.mpr ⟨List.mem_filterMap.mpr ⟨_, inFound, rfl⟩, ?_⟩, correction⟩
  rw [Violation.isCorrectable, correction]
  rfl

/-! ### Methods that are left alone -/

variable {rule : NamingRule}

theorem Naming.NamingRule.Renames.replaces {declaration : Declaration} (renames : rule.Renames declaration) :
    Renaming declaration.name (rule.newName declaration) :=
  Naming.renaming_of_suggestion (head?_suggestions renames.found)

theorem Naming.NamingRule.Renames.starts {declaration : Declaration} (renames : rule.Renames declaration) :
    getStart <+: declaration.name ∨ setStart <+: declaration.name := by
  obtain ⟨start, isStart, nameEq⟩ := renames.replaces.exists_subject
  have begins : start <+: declaration.name := ⟨_, nameEq.symm⟩
  rcases isStart with rfl | rfl
  · exact Or.inl begins
  · exact Or.inr begins

/-- A getter that sends a request is left alone. -/
theorem Naming.NamingRule.Renames.not_sends (defaults : rule.patterns = .default) {declaration : Declaration}
    (renames : rule.Renames declaration) (getter : getStart <+: declaration.name) :
    PatternSets.default.sendsGetRequest declaration.sourceText = false := by
  rw [Bool.eq_false_iff]
  intro sends
  apply renames.found
  have starts : declaration.name.startsWith getStart = true := List.isPrefixOf_iff_prefix.mpr getter
  unfold NamingRule.outcome Naming.classify
  rw [defaults]
  dsimp only
  rw [if_pos starts, if_pos sends]
  split <;> rfl

/-- A method that is renamed with its requests and arguments would have been renamed before. -/
theorem Naming.NamingRule.Renames.of_kept (defaults : rule.patterns = .default) {before after : Declaration}
    (renames : rule.Renames after) (name : after.name = before.name)
    (argumentCount : after.argumentCount = before.argumentCount) (filePath : after.filePath = before.filePath)
    (requests : KeepsRequests before.sourceText after.sourceText) : rule.Renames before := by
  constructor
  · intro skipped
    apply renames.found
    unfold NamingRule.outcome Naming.classify at skipped ⊢
    rw [defaults] at skipped ⊢
    dsimp only at skipped ⊢
    rw [name, argumentCount, filePath]
    split_ifs at skipped with getter none sends calls setter noArguments api
    · rw [if_pos getter, if_pos none]
    · rw [if_pos getter, if_neg none, if_pos (requests.1 sends)]
    · obtain ⟨api, calls⟩ := Bool.and_eq_true_iff.mp calls
      rw [if_pos getter, if_neg none, api, requests.2 calls]
      simp
    · rw [if_neg getter, if_pos setter, if_pos noArguments]
    · rw [if_neg getter, if_neg setter]
  · rw [← name]
    exact renames.renamable

/-! ### Renamings are silent -/

/-- A request that ends with the first symbols of a name behind a gap lies in the head, so in the source of the
definition. -/
theorem Source.Definition.request_in_source {text path : Text} {definition : Definition} {slot : Slot}
    (fill : text = slot.fill definition.header.name) (start : definition.start = slot.left.length)
    (within : (slot.front ++ definition.header.name).length ≤ definition.stop) {word : Text}
    (inWords : word ∈ requestWords) (ends : word <:+ slot.front ++ definition.header.name.take 3) :
    word <:+: (definition.declared text path).sourceText := by
  obtain ⟨gap, others, leadEq, space⟩ := slot.isLead.head
  have regrouped : slot.front ++ definition.header.name.take 3 =
      (slot.left ++ Text.ofString "def") ++ gap :: (others ++ definition.header.name.take 3) := by
    simp [Slot.front, leadEq]
  rw [regrouped] at ends
  have near := Naming.suffix_of_not_mem (Naming.gap_not_mem_requestWords space inWords) ends
  have inHead : others ++ definition.header.name.take 3 <:+:
      (Text.ofString "def" ++ slot.lead) ++ definition.header.name := by
    refine ⟨Text.ofString "def" ++ [gap], definition.header.name.drop 3, ?_⟩
    simp [leadEq]
  have body : text = slot.left ++ (((Text.ofString "def" ++ slot.lead) ++ definition.header.name) ++ slot.back) := by
    rw [fill]
    simp [Slot.fill, Slot.front]
  have size : ((Text.ofString "def" ++ slot.lead) ++ definition.header.name).length ≤ definition.stop - definition.start := by
    have front : slot.front.length = slot.left.length + (Text.ofString "def" ++ slot.lead).length := List.length_append
    rw [List.length_append] at within ⊢
    omega
  have source : (Text.ofString "def" ++ slot.lead) ++ definition.header.name <+:
      (definition.declared text path).sourceText := by
    change _ <+: (text.take definition.stop).drop definition.start
    rw [List.drop_take, start, body, List.drop_left, List.prefix_take_iff]
    exact ⟨List.prefix_append _ _, start ▸ size⟩
  exact near.isInfix.trans (inHead.trans source.isInfix)

/-- Where a regular definition is renamed, no request ends with the first symbols of the name: it would be a request of
the definition itself. -/
theorem Naming.NamingRule.Renames.silent (defaults : rule.patterns = .default) {text path : Text}
    {definition : Definition} (member : definition ∈ Definition.all (blank text))
    (regular : definition.isRegular text = true) (renames : rule.Renames (definition.declared text path))
    (newName : Text) : Silent text (NamingRule.nameEdit (definition.declared text path) newName) := by
  obtain ⟨left, lead, rest, stands⟩ := Definition.exists_stands member
  have identifier : Source.IsIdentifier definition.header.name :=
    renames.replaces.identifier renames.renamable stands.named
  have layout := regular
  simp only [Definition.isRegular, Bool.and_eq_true] at layout
  obtain ⟨slot, fill, start, nameBegin, -⟩ := Definition.exists_slot member identifier layout.1.2 layout.2
  have nameEnd := Definition.nameEnd_eq member
  have within := Definition.nameEnd_le_stop member
  have starts : getStart <+: definition.header.name ∨ setStart <+: definition.header.name := renames.starts
  have long : 4 ≤ definition.header.name.length := by
    rcases starts with begins | begins <;> exact begins.length_le
  have dropped : text.drop definition.header.nameBegin = definition.header.name ++ slot.back := by
    rw [nameBegin, fill, Slot.fill, List.drop_left]
  constructor
  · exact Int.natCast_nonneg _
  · change (definition.header.nameBegin : Int) + 4 ≤ definition.header.nameEnd
    omega
  · change getStart <+: text.drop definition.header.nameBegin ∨ setStart <+: text.drop definition.header.nameBegin
    rw [dropped]
    exact starts.imp (fun begins => begins.trans (List.prefix_append _ _))
      fun begins => begins.trans (List.prefix_append _ _)
  · intro last isLast
    change last ∈ (text.take definition.header.nameEnd).getLast? at isLast
    have taken : text.take definition.header.nameEnd = slot.front ++ definition.header.name := by
      rw [nameEnd, nameBegin, ← List.length_append, fill, Slot.fill, ← List.append_assoc, List.take_left]
    rw [taken, List.getLast?_append_of_ne_nil _ identifier.ne_nil] at isLast
    exact identifier.words last (List.mem_of_getLast? isLast)
  · intro word inWords ends
    change word <:+ text.take (definition.header.nameBegin + 3) at ends
    have taken : text.take (definition.header.nameBegin + 3) = slot.front ++ definition.header.name.take 3 := by
      rw [nameBegin, fill, Slot.fill, List.take_length_add_append, List.take_append_of_le_length (by omega)]
    rw [taken] at ends
    rcases starts with getter | setter
    · -- the word lies in the head, so the definition sends a request
      have inside : word <:+: (definition.declared text path).sourceText :=
        Definition.request_in_source fill start (by rw [List.length_append]; omega) inWords ends
      have literal : ∀ word ∈ requestWords, Regex.literal word ∈ PatternSets.default.httpGet := by decide
      have sends : PatternSets.default.sendsGetRequest (definition.declared text path).sourceText = true :=
        List.any_eq_true.mpr ⟨_, literal word inWords, Regex.occursIn_literal.mpr inside⟩
      rw [renames.not_sends defaults getter] at sends
      cases sends
    · -- no word of a request ends like a setter starts
      obtain ⟨subject, nameEq⟩ := setter
      have three : definition.header.name.take 3 = Text.ofString "set" := by
        rw [← nameEq]
        rfl
      have noSetter : ∀ word ∈ requestWords, 3 ≤ word.length ∧ ¬Text.ofString "set" <:+ word := by decide
      rw [three] at ends
      exact (noSetter word inWords).2
        (List.suffix_of_suffix_length_le (List.suffix_append _ _) ends (noSetter word inWords).1)

/-! ### One pass -/

/-- The edits of a pass: those of all methods that a rule would rename, and no others. -/
structure Flagged.Exactly (rule : NamingRule) (text path : Text) (flagged : List (Declaration × Text)) : Prop
    extends Flagged text path flagged where
  only : ∀ named ∈ flagged, rule.Renames named.1 ∧ named.2 = rule.newName named.1
  complete : ∀ declaration ∈ Declaration.scan text path, rule.Renames declaration →
    (declaration, rule.newName declaration) ∈ flagged

/-- Whether the methods of a text that a rule would rename are regular, and so many passes are enough for them. -/
def Bounded (rule : NamingRule) (path : Text) (passes : Nat) (text : Text) : Prop :=
  ∀ definition ∈ Definition.all (blank text), rule.Renames (definition.declared text path) →
    definition.isRegular text = true ∧ accessorParts definition.header.name ≤ passes

variable {text path : Text} {flagged : List (Declaration × Text)} {passes : Nat}

/-- The name of a method after a pass. -/
theorem Flagged.Exactly.nameAfter_eq (exactly : Flagged.Exactly rule text path flagged) {definition : Definition}
    (member : definition ∈ Definition.all (blank text)) :
    (rule.Renames (definition.declared text path) ∧
        nameAfter (renamingEdits flagged) definition.header.nameBegin definition.header.name =
          rule.newName (definition.declared text path)) ∨
      ¬rule.Renames (definition.declared text path) ∧
        nameAfter (renamingEdits flagged) definition.header.nameBegin definition.header.name =
          definition.header.name := by
  -- an edit that starts at a name belongs to the method of that name
  have own : ∀ edit ∈ renamingEdits flagged, edit.start = definition.header.nameBegin →
      rule.Renames (definition.declared text path) ∧ edit.text = rule.newName (definition.declared text path) := by
    intro edit inEdits start
    obtain ⟨named, inFlagged, rfl⟩ := List.mem_map.mp inEdits
    obtain ⟨other, inCode, same⟩ := List.mem_map.mp (exactly.sublist.subset (List.mem_map_of_mem inFlagged))
    obtain ⟨renames, newName⟩ := exactly.only named inFlagged
    have sameDeclaration : other.declared text path = named.1 := same
    rw [← sameDeclaration] at renames newName start
    obtain rfl := Definition.eq_of_nameBegin inCode member (Int.ofNat.inj start)
    exact ⟨renames, newName⟩
  by_cases renames : rule.Renames (definition.declared text path)
  · left
    refine ⟨renames, ?_⟩
    have inFlagged := exactly.complete _ (List.mem_map_of_mem member) renames
    have inEdits : NamingRule.nameEdit (definition.declared text path) (rule.newName (definition.declared text path)) ∈
        renamingEdits flagged := List.mem_map.mpr ⟨_, inFlagged, rfl⟩
    unfold nameAfter
    cases found : (renamingEdits flagged).find? fun edit => decide (edit.start = (definition.header.nameBegin : Int)) with
    | none => exact absurd (decide_eq_true rfl) (List.find?_eq_none.mp found _ inEdits)
    | some edit =>
        have start := List.find?_some found
        exact (own edit (List.mem_of_find?_eq_some found) (of_decide_eq_true start)).2
  · right
    exact ⟨renames, nameAfter_of_absent (fun edit inEdits start => renames (own edit inEdits start).1) _⟩

/-- A pass takes one part from every name that it changes, and leaves no new method to rename. -/
theorem Bounded.pass (defaults : rule.patterns = .default) (bounded : Bounded rule path (passes + 1) text)
    (exactly : Flagged.Exactly rule text path flagged) :
    Bounded rule path passes (substitute (renamingEdits flagged) 0 text) := by
  have regular : ∀ definition ∈ Definition.all (blank text), ∀ newName,
      (definition.declared text path, newName) ∈ flagged → definition.isRegular text = true := by
    intro definition member newName inFlagged
    exact (bounded definition member (exactly.only _ inFlagged).1).1
  have retitled := exactly.toFlagged.retitled regular
  have silent : ∀ edit ∈ renamingEdits flagged, Silent text edit := by
    intro edit inEdits
    obtain ⟨named, inFlagged, rfl⟩ := List.mem_map.mp inEdits
    obtain ⟨definition, member, same⟩ := List.mem_map.mp (exactly.sublist.subset (List.mem_map_of_mem inFlagged))
    have sameDeclaration : definition.declared text path = named.1 := same
    have renames := (exactly.only named inFlagged).1
    rw [← sameDeclaration] at renames ⊢
    exact renames.silent defaults member (bounded definition member renames).1 named.2
  have apart := exactly.toFlagged.ascending.apart.imp fun order => Int.le_of_lt order
  have requests := retitled.keepsRequests apart silent path
  intro after inOut renamesAfter
  obtain ⟨before, member, follows, kept⟩ : ∃ before ∈ Definition.all (blank text),
      Definition.Follows text (substitute (renamingEdits flagged) 0 text) (renamingEdits flagged) before after ∧
        KeepsRequests (before.declared text path).sourceText
          (after.declared (substitute (renamingEdits flagged) 0 text) path).sourceText := by
    have both := retitled.follows.mp (fun _ _ follows kept => And.intro follows kept) requests
    exact exists_of_mem_right both inOut
  have keeps := follows.keeps path
  rcases exactly.nameAfter_eq member with ⟨renames, newName⟩ | ⟨alone, sameName⟩
  · obtain ⟨isRegular, parts⟩ := bounded before member renames
    have fewer : accessorParts (rule.newName (before.declared text path)) + 1 ≤ accessorParts before.header.name :=
      renames.replaces.parts
    refine ⟨follows.regular isRegular, ?_⟩
    rw [follows.name, newName]
    omega
  · have name : after.header.name = before.header.name := follows.name.trans sameName
    have renames : rule.Renames (before.declared text path) :=
      renamesAfter.of_kept defaults name keeps.argumentCount rfl kept
    exact absurd renames alone

/-- What can be renamed in no pass at all is not there. -/
theorem Bounded.none (bounded : Bounded rule path 0 text) (declaration : Declaration)
    (member : declaration ∈ Declaration.scan text path) : ¬rule.Renames declaration := by
  intro renames
  obtain ⟨definition, inCode, rfl⟩ := List.mem_map.mp member
  have few : accessorParts definition.header.name ≤ 0 := (bounded definition inCode renames).2
  have more : _ + 1 ≤ accessorParts definition.header.name := renames.replaces.parts
  omega

/-! ### All passes -/

variable {parallel : Bool} {root : Path} {settings : RuleSettings} {engine : Engine} {notices : List Notice}

/-- A pass that finds something to correct renames exactly the methods that the rule would rename. -/
theorem Engine.pass_exactly
    (loaded : (Engine.empty parallel).loadBuiltin root settings = .ok (engine, notices)) (path text : Text)
    (something : correctable engine.rules path text ≠ []) :
    ∃ rule flagged, NamingRule.ofSettings settings (some root) = .ok rule ∧
      Flagged.Exactly rule text path flagged ∧ flagged ≠ [] ∧
      pass engine.rules path text = ⟨⟨text, renamingEdits flagged⟩, flagged.length, []⟩ := by
  obtain ⟨flagged, isFlagged, corrects, registered⟩ := Engine.pass_flagged loaded path text
  rcases Engine.correctable_cases loaded path text with nothing | ⟨rule, violations, made, checked, found⟩
  · exact absurd nothing something
  have own : List.Forall₂ (Corrects rule) flagged (correctable engine.rules path text) := by
    refine corrects.imp fun named violation ⟨other, otherMade, here⟩ => ?_
    rw [made] at otherMade
    cases otherMade
    exact here
  have nonempty : flagged ≠ [] := by
    rintro rfl
    exact something (List.forall₂_nil_left_iff.mp own)
  refine ⟨rule, flagged, made, ⟨isFlagged, ?_, ?_⟩, nonempty, registered⟩
  · intro named member
    obtain ⟨violation, -, here⟩ := exists_of_mem_left own member
    have found : rule.outcome named.1 ≠ .skip := by
      intro skipped
      have newName := here.newName
      rw [skipped] at newName
      cases newName
    have newName := here.newName
    rw [head?_suggestions found] at newName
    exact ⟨⟨found, here.renamable⟩, (Option.some.inj newName).symm⟩
  · intro declaration member renames
    obtain ⟨first, firstMember⟩ := List.exists_mem_of_ne_nil flagged nonempty
    obtain ⟨_, -, firstCorrects⟩ := exists_of_mem_left own firstMember
    obtain ⟨violation, inViolations, correction⟩ := check_complete checked firstCorrects.corrects member renames
    rw [← found] at inViolations
    obtain ⟨named, inFlagged, here⟩ := exists_of_mem_right own inViolations
    -- the violation belongs to one method only
    rw [here.correction] at correction
    have sameEdit := List.singleton_inj.mp (Option.some.inj correction)
    have sameStart : named.1.nameRange.start = declaration.nameRange.start :=
      Int.ofNat.inj (congrArg Edit.start sameEdit)
    have sameText : named.2 = rule.newName declaration := congrArg Edit.text sameEdit
    obtain ⟨other, inCode, otherEq⟩ := List.mem_map.mp (isFlagged.sublist.subset (List.mem_map_of_mem inFlagged))
    obtain ⟨definition, definitionMember, rfl⟩ := List.mem_map.mp member
    rw [← otherEq] at sameStart
    obtain rfl := Definition.eq_of_nameBegin inCode definitionMember sameStart
    have sameNamed : named = (other.declared text path, rule.newName (other.declared text path)) :=
      Prod.ext otherEq.symm sameText
    rw [sameNamed] at inFlagged
    exact inFlagged

theorem Naming.NamingRule.ofSettings_patterns {project : Option Path} {rule : NamingRule} {patterns : PatternSets}
    (made : NamingRule.ofSettings settings project = .ok rule) (given : NamingRule.patternSetsOf settings = .ok patterns) :
    rule.patterns = patterns := by
  obtain ⟨severity, -, rest⟩ := bind_eq_ok made
  rw [given] at rest
  cases rest
  rfl

/-- With enough passes, correction ends with a text in which nothing is left to correct. -/
theorem Engine.correctFrom_bounded
    (loaded : (Engine.empty parallel).loadBuiltin root settings = .ok (engine, notices))
    (defaults : NamingRule.patternSetsOf settings = .ok .default) (path : Text) (passes count : Nat) (content : Text)
    (bounded : ∀ rule, NamingRule.ofSettings settings (some root) = .ok rule → Bounded rule path passes content) :
    ∃ out, (correctFrom engine.rules path passes count content).content = out ∧
      (correctFrom engine.rules path passes count content).remaining =
        (check engine.rules (.ofContent path out) []).violations ∧
      correctable engine.rules path out = [] := by
  induction passes generalizing count content with
  | zero =>
      refine ⟨content, rfl, rfl, ?_⟩
      by_contra something
      obtain ⟨rule, flagged, made, exactly, nonempty, -⟩ := Engine.pass_exactly loaded path content something
      obtain ⟨named, member⟩ := List.exists_mem_of_ne_nil flagged nonempty
      have inScan := exactly.sublist.subset (List.mem_map_of_mem member)
      exact (bounded rule made).none named.1 inScan (exactly.only named member).1
  | succ passes ih =>
      obtain ⟨applied, segments⟩ := Engine.pass_segments loaded path content
      by_cases nothing : (pass engine.rules path content).applied = 0
      · obtain ⟨told, last⟩ := correctFrom_of_nothing nothing passes count
        rw [last]
        exact ⟨content, rfl, rfl, List.length_eq_zero_iff.mp (by omega)⟩
      · have changed : (pass engine.rules path content).buffer.process ≠ content := by
          intro unchanged
          rw [unchanged] at segments
          omega
        have something : correctable engine.rules path content ≠ [] := by
          intro none
          rw [none] at applied
          exact nothing applied
        obtain ⟨told, goesOn⟩ := correctFrom_of_changed nothing changed passes count
        rw [goesOn]
        apply ih
        intro rule made
        obtain ⟨other, flagged, otherMade, exactly, -, registered⟩ := Engine.pass_exactly loaded path content something
        rw [made] at otherMade
        cases otherMade
        have next : (pass engine.rules path content).buffer.process = substitute (renamingEdits flagged) 0 content := by
          rw [registered]
          exact EditBuffer.process_eq_substitute exactly.toFlagged.ascending
        rw [next]
        exact (bounded rule made).pass (NamingRule.ofSettings_patterns made defaults) exactly

/-! ### A fixed point -/

/-- Correction with the patterns that come with the linter reaches a fixed point, if every accessor is written in the
regular way and has no more parts that are `get` or `set` than there are passes.  Then nothing is left to correct of
what a check of the new text finds, and correcting the new text again changes nothing. -/
theorem correction_reaches_fixed_point
    (loaded : (Engine.empty parallel).loadBuiltin root settings = .ok (engine, notices))
    (defaults : NamingRule.patternSetsOf settings = .ok .default) (path content : Text)
    (regular : ∀ definition ∈ Definition.all (blank content),
      getStart <+: definition.header.name ∨ setStart <+: definition.header.name →
        definition.isRegular content = true ∧ accessorParts definition.header.name ≤ 10) :
    let corrected := correct engine.rules path content
    let again := correct engine.rules path corrected.content
    GoesByPasses engine.rules path ∧
      corrected.remaining = (check engine.rules (.ofContent path corrected.content) []).violations ∧
      (∀ violation ∈ corrected.remaining, violation.isCorrectable = false) ∧
      again.content = corrected.content ∧ again.remaining = corrected.remaining ∧ again.count = 0 := by
  have bounded : ∀ rule, NamingRule.ofSettings settings (some root) = .ok rule →
      Bounded rule path maxPasses content :=
    fun rule made definition member renames => regular definition member renames.starts
  obtain ⟨out, contentEq, remainingEq, none⟩ :=
    Engine.correctFrom_bounded loaded defaults path maxPasses 0 content bounded
  have nothing : (pass engine.rules path out).applied = 0 := by
    rw [(Engine.pass_segments loaded path out).1, none]
    rfl
  obtain ⟨told, last⟩ := correctFrom_of_nothing nothing 9 0
  refine ⟨goesByPasses engine.rules path, correctFrom_remaining engine.rules path maxPasses 0 content, ?_⟩
  unfold correct
  rw [contentEq, remainingEq]
  change (∀ violation ∈ _, _) ∧ (correctFrom engine.rules path (9 + 1) 0 out).content = _ ∧
    (correctFrom engine.rules path (9 + 1) 0 out).remaining = _ ∧ (correctFrom engine.rules path (9 + 1) 0 out).count = 0
  rw [last]
  refine ⟨fun violation member => ?_, rfl, rfl, rfl⟩
  exact Bool.eq_false_iff.mpr (List.filter_eq_nil_iff.mp none violation member)

/-- Stacked starts take several passes, and a getter that sends a request is left alone in each. -/
theorem stacked_accessors_settle :
    ∃ (engine : Engine) (notices : List Notice) (content : Text),
      content = "def get_set_total(tax)\nend\ndef self.get_page(url)\n  http.get(url)\nend\n" ∧
        (Engine.empty true).loadBuiltin (.ofText "/srv/shop") .default = .ok (engine, notices) ∧
        NamingRule.patternSetsOf .default = .ok .default ∧
        (∀ definition ∈ Definition.all (blank content),
          getStart <+: definition.header.name ∨ setStart <+: definition.header.name →
            definition.isRegular content = true ∧ accessorParts definition.header.name ≤ 10) ∧
        (∀ violation ∈ (correct engine.rules "cart.rb" content).remaining, violation.isCorrectable = false) ∧
        (correct engine.rules "cart.rb" (correct engine.rules "cart.rb" content).content).count = 0 := by
  obtain ⟨engine, notices, loaded⟩ : ∃ engine notices,
      (Engine.empty true).loadBuiltin (.ofText "/srv/shop") .default = .ok (engine, notices) := ⟨_, _, rfl⟩
  have regular : ∀ definition ∈ Definition.all
        (blank "def get_set_total(tax)\nend\ndef self.get_page(url)\n  http.get(url)\nend\n"),
      getStart <+: definition.header.name ∨ setStart <+: definition.header.name →
        definition.isRegular "def get_set_total(tax)\nend\ndef self.get_page(url)\n  http.get(url)\nend\n" = true ∧
          accessorParts definition.header.name ≤ 10 := by decide +kernel
  obtain ⟨-, -, settled, -, -, nothing⟩ := correction_reaches_fixed_point loaded rfl "cart.rb" _ regular
  exact ⟨engine, notices, _, rfl, loaded, rfl, regular, settled, nothing⟩

end AccessorLint
