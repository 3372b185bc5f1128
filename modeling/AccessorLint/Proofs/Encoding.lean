import Mathlib
import AccessorLint.Text.Utf8
set_option autoImplicit false

/-!
Reading and writing bytes.

Writing what was read from bytes gives the bytes back.  Reading what was written gives a text back if its stray bytes
form no character with what stands behind them.  Texts that were read are such texts, and they stay so when characters
between them are exchanged for others.
-/

namespace AccessorLint.Text

/-! ### Bytes of a character -/

theorem continuation?_eq_some {byte : UInt8} {low : Nat} :
    continuation? byte = some low ↔ low < 0x40 ∧ byte.toNat = 0x80 + low := by
  unfold continuation?
  constructor
  · intro continues
    split at continues
    · rename_i range
      simp only [Bool.and_eq_true, decide_eq_true_eq] at range
      have lowEq := Option.some.inj continues
      omega
    · cases continues
  · rintro ⟨small, byteEq⟩
    rw [byteEq, if_pos (by simp; omega), Nat.add_sub_cancel_left]

theorem continuation?_tail (number : Nat) :
    continuation? (UInt8.ofNat (0x80 + number % 0x40)) = some (number % 0x40) := by
  apply continuation?_eq_some.mpr
  have small := Nat.mod_lt number (show 0 < 0x40 by omega)
  refine ⟨small, ?_⟩
  rw [UInt8.toNat_ofNat', Nat.mod_eq_of_lt (by omega)]

theorem ofNat_of_toNat (byte : UInt8) {number : Nat} (same : number = byte.toNat) : UInt8.ofNat number = byte := by
  rw [same, UInt8.ofNat_toNat]

theorem charBytes_ne_nil (char : Char) : charBytes char ≠ [] := by
  unfold charBytes
  dsimp only
  split_ifs <;> exact List.cons_ne_nil _ _

theorem toNat_ofNat_of_lt {number : Nat} (small : number < 0x100) : (UInt8.ofNat number).toNat = number := by
  rw [UInt8.toNat_ofNat', Nat.mod_eq_of_lt small]

theorem readChar?_charBytes (char : Char) (rest : Bytes) :
    readChar? (charBytes char ++ rest) = some (char, (charBytes char).length - 1) := by
  have valid : char.toNat.isValidChar := char.valid
  have bound : char.toNat < 0x110000 := by
    unfold Nat.isValidChar at valid
    omega
  unfold charBytes
  dsimp only
  split_ifs with one two three
  · have lead := toNat_ofNat_of_lt (show char.toNat < 0x100 by omega)
    simp only [List.cons_append, readChar?, lead, if_pos one, Char.ofNat_toNat]
    rfl
  · have lead := toNat_ofNat_of_lt (show 0xC0 + char.toNat / 0x40 < 0x100 by omega)
    have code : (0xC0 + char.toNat / 0x40 - 0xC0) * 0x40 + char.toNat / 1 % 0x40 = char.toNat := by omega
    simp only [List.cons_append, List.nil_append, readChar?, lead, List.head?_cons, Option.bind_eq_bind,
      Option.bind_some, continuation?_tail, code, Char.ofNat_toNat]
    rw [if_neg (by omega), if_neg (by omega), if_pos (by omega), if_pos (by omega)]
    rfl
  · have lead := toNat_ofNat_of_lt (show 0xE0 + char.toNat / 0x1000 < 0x100 by omega)
    have code : ((0xE0 + char.toNat / 0x1000 - 0xE0) * 0x40 + char.toNat / 0x40 % 0x40) * 0x40 +
        char.toNat / 1 % 0x40 = char.toNat := by omega
    simp only [List.cons_append, List.nil_append, readChar?, lead, List.head?_cons, Option.bind_eq_bind,
      Option.bind_some, continuation?_tail, List.getElem?_cons_succ, List.getElem?_cons_zero, code,
      Char.ofNat_toNat]
    rw [if_neg (by omega), if_neg (by omega), if_neg (by omega), if_pos (by omega), if_pos (by simp [valid]; omega)]
    rfl
  · have lead := toNat_ofNat_of_lt (show 0xF0 + char.toNat / 0x40000 < 0x100 by omega)
    have code : (((0xF0 + char.toNat / 0x40000 - 0xF0) * 0x40 + char.toNat / 0x1000 % 0x40) * 0x40 +
        char.toNat / 0x40 % 0x40) * 0x40 + char.toNat / 1 % 0x40 = char.toNat := by omega
    simp only [List.cons_append, List.nil_append, readChar?, lead, List.head?_cons, Option.bind_eq_bind,
      Option.bind_some, continuation?_tail, List.getElem?_cons_succ, List.getElem?_cons_zero, code,
      Char.ofNat_toNat]
    rw [if_neg (by omega), if_neg (by omega), if_neg (by omega), if_neg (by omega), if_pos (by simp [valid]; omega)]
    rfl

theorem toNat_ofNat_of_valid {number : Nat} (valid : number.isValidChar) : (Char.ofNat number).toNat = number := by
  rw [Char.toNat_ofNat, if_pos valid]

theorem charBytes_two {first second : UInt8} {low : Nat} (lead : 0xC0 ≤ first.toNat ∧ first.toNat < 0xE0)
    (continues : low < 0x40 ∧ second.toNat = 0x80 + low) (proper : 0x80 ≤ (first.toNat - 0xC0) * 0x40 + low) :
    charBytes (Char.ofNat ((first.toNat - 0xC0) * 0x40 + low)) = [first, second] := by
  have code := @toNat_ofNat_of_valid ((first.toNat - 0xC0) * 0x40 + low) (Or.inl (by omega))
  simp only [charBytes, code]
  rw [if_neg (by omega), if_pos (by omega), ofNat_of_toNat first (by omega), ofNat_of_toNat second (by omega)]

theorem charBytes_three {first second third : UInt8} {middle low : Nat}
    (lead : 0xE0 ≤ first.toNat ∧ first.toNat < 0xF0) (continues : middle < 0x40 ∧ second.toNat = 0x80 + middle)
    (ends : low < 0x40 ∧ third.toNat = 0x80 + low)
    (proper : 0x800 ≤ ((first.toNat - 0xE0) * 0x40 + middle) * 0x40 + low ∧
      (((first.toNat - 0xE0) * 0x40 + middle) * 0x40 + low).isValidChar) :
    charBytes (Char.ofNat (((first.toNat - 0xE0) * 0x40 + middle) * 0x40 + low)) = [first, second, third] := by
  have code := toNat_ofNat_of_valid proper.2
  simp only [charBytes, code]
  rw [if_neg (by omega), if_neg (by omega), if_pos (by omega), ofNat_of_toNat first (by omega),
    ofNat_of_toNat second (by omega), ofNat_of_toNat third (by omega)]

theorem charBytes_four {first second third fourth : UInt8} {high middle low : Nat} (lead : 0xF0 ≤ first.toNat)
    (follows : high < 0x40 ∧ second.toNat = 0x80 + high) (continues : middle < 0x40 ∧ third.toNat = 0x80 + middle)
    (ends : low < 0x40 ∧ fourth.toNat = 0x80 + low)
    (proper : 0x10000 ≤ (((first.toNat - 0xF0) * 0x40 + high) * 0x40 + middle) * 0x40 + low ∧
      ((((first.toNat - 0xF0) * 0x40 + high) * 0x40 + middle) * 0x40 + low).isValidChar) :
    charBytes (Char.ofNat ((((first.toNat - 0xF0) * 0x40 + high) * 0x40 + middle) * 0x40 + low)) =
      [first, second, third, fourth] := by
  have code := toNat_ofNat_of_valid proper.2
  simp only [charBytes, code]
  rw [if_neg (by omega), if_neg (by omega), if_neg (by omega), ofNat_of_toNat first (by omega),
    ofNat_of_toNat second (by omega), ofNat_of_toNat third (by omega), ofNat_of_toNat fourth (by omega)]

theorem exists_continuation {bytes : Bytes} {low : Nat} (continues : (bytes.head? >>= continuation?) = some low) :
    ∃ byte rest, bytes = byte :: rest ∧ low < 0x40 ∧ byte.toNat = 0x80 + low := by
  obtain ⟨byte, found, here⟩ := Option.bind_eq_some_iff.mp continues
  obtain ⟨rest, split⟩ := List.head?_eq_some_iff.mp found
  exact ⟨byte, rest, split, continuation?_eq_some.mp here⟩

/-- Bytes from which a character is read start with its bytes. -/
theorem charBytes_of_readChar? {bytes : Bytes} {char : Char} {length : Nat}
    (read : readChar? bytes = some (char, length)) :
    length + 1 = (charBytes char).length ∧ ∃ rest, bytes = charBytes char ++ rest := by
  cases bytes with
  | nil => cases read
  | cons first rest =>
      simp only [readChar?] at read
      split at read
      · rename_i one
        obtain ⟨rfl, rfl⟩ := Prod.mk.inj (Option.some.inj read)
        have code := @toNat_ofNat_of_valid first.toNat (Or.inl (by omega))
        simp only [charBytes, code, if_pos one, UInt8.ofNat_toNat]
        exact ⟨rfl, rest, rfl⟩
      split at read
      · cases read
      split at read
      · obtain ⟨low, lowRead, chosen⟩ := Option.bind_eq_some_iff.mp read
        obtain ⟨second, behind, rfl, ends⟩ := exists_continuation lowRead
        split at chosen
        · obtain ⟨rfl, rfl⟩ := Prod.mk.inj (Option.some.inj chosen)
          rw [charBytes_two (by omega) ends (by omega)]
          exact ⟨rfl, behind, rfl⟩
        · cases chosen
      split at read
      · obtain ⟨middle, middleRead, further⟩ := Option.bind_eq_some_iff.mp read
        obtain ⟨low, lowRead, chosen⟩ := Option.bind_eq_some_iff.mp further
        obtain ⟨second, others, rfl, continues⟩ := exists_continuation middleRead
        rw [List.getElem?_cons_succ, ← List.head?_eq_getElem?] at lowRead
        obtain ⟨third, behind, rfl, ends⟩ := exists_continuation lowRead
        split at chosen
        · rename_i proper
          obtain ⟨rfl, rfl⟩ := Prod.mk.inj (Option.some.inj chosen)
          rw [charBytes_three (by omega) continues ends (by simpa using proper)]
          exact ⟨rfl, behind, rfl⟩
        · cases chosen
      · obtain ⟨high, highRead, further⟩ := Option.bind_eq_some_iff.mp read
        obtain ⟨middle, middleRead, last⟩ := Option.bind_eq_some_iff.mp further
        obtain ⟨low, lowRead, chosen⟩ := Option.bind_eq_some_iff.mp last
        obtain ⟨second, others, rfl, follows⟩ := exists_continuation highRead
        rw [List.getElem?_cons_succ, ← List.head?_eq_getElem?] at middleRead
        obtain ⟨third, beyond, rfl, continues⟩ := exists_continuation middleRead
        rw [List.getElem?_cons_succ, List.getElem?_cons_succ, ← List.head?_eq_getElem?] at lowRead
        obtain ⟨fourth, behind, rfl, ends⟩ := exists_continuation lowRead
        split at chosen
        · rename_i proper
          obtain ⟨rfl, rfl⟩ := Prod.mk.inj (Option.some.inj chosen)
          rw [charBytes_four (by omega) follows continues ends (by simpa using proper)]
          exact ⟨rfl, behind, rfl⟩
        · cases chosen

/-- A character is not read beyond a byte that continues none. -/
theorem readChar?_append {bytes more : Bytes} (nonempty : bytes ≠ [])
    (stops : ∀ byte ∈ more.head?, continuation? byte = none) : readChar? (bytes ++ more) = readChar? bytes := by
  have ends : (more.head? >>= continuation?) = none := by
    cases more with
    | nil => rfl
    | cons byte rest => exact stops byte rfl
  match bytes with
  | [] => exact absurd rfl nonempty
  | [first] =>
      simp only [List.cons_append, List.nil_append, readChar?, ends]
      rfl
  | [first, second] =>
      simp only [List.cons_append, List.nil_append, readChar?, List.head?_cons, List.getElem?_cons_succ,
        ← List.head?_eq_getElem?, ends]
      rfl
  | [first, second, third] =>
      simp only [List.cons_append, List.nil_append, readChar?, List.head?_cons, List.getElem?_cons_succ,
        ← List.head?_eq_getElem?, ends]
      rfl
  | first :: second :: third :: fourth :: rest => rfl

theorem continuation?_of_readChar? {byte : UInt8} {rest : Bytes} {found : Char × Nat}
    (read : readChar? (byte :: rest) = some found) : continuation? byte = none := by
  cases continues : continuation? byte with
  | none => rfl
  | some low =>
      obtain ⟨small, byteEq⟩ := continuation?_eq_some.mp continues
      simp only [readChar?] at read
      rw [if_neg (by omega), if_pos (by omega)] at read
      cases read

/-- The bytes of a character continue no other. -/
theorem charBytes_head (char : Char) (rest : Bytes) :
    ∀ byte ∈ (charBytes char ++ rest).head?, continuation? byte = none := by
  intro byte member
  obtain ⟨others, split⟩ := List.head?_eq_some_iff.mp member
  have read := readChar?_charBytes char rest
  rw [split] at read
  exact continuation?_of_readChar? read

/-! ### Reading -/

theorem decodeAfter_eq (count : Nat) (bytes : Bytes) : decodeAfter count bytes = decode (bytes.drop count) := by
  induction count generalizing bytes with
  | zero => rfl
  | succ count ih =>
      cases bytes with
      | nil => rfl
      | cons byte rest =>
          rw [decodeAfter, ih, List.drop_succ_cons]

theorem decode_char (char : Char) (rest : Bytes) : decode (charBytes char ++ rest) = .glyph char :: decode rest := by
  obtain ⟨first, others, bytesEq⟩ := List.exists_cons_of_ne_nil (charBytes_ne_nil char)
  have read := readChar?_charBytes char rest
  rw [bytesEq, List.cons_append] at read ⊢
  rw [decode, decodeAfter, read]
  dsimp only
  rw [decodeAfter_eq, List.length_cons, Nat.add_sub_cancel, List.drop_left]

theorem decode_stray {byte : UInt8} {rest : Bytes} (unread : readChar? (byte :: rest) = none) :
    decode (byte :: rest) = .stray (Fin.ofNat 128 byte.toNat) :: decode rest := by
  rw [decode, decodeAfter, unread]
  rfl

/-- Bytes are none, a character and more bytes, or a stray byte and more bytes. -/
theorem bytes_induction {motive : Bytes → Prop} (nil : motive [])
    (char : ∀ char rest, motive rest → motive (charBytes char ++ rest))
    (stray : ∀ byte rest, readChar? (byte :: rest) = none → motive rest → motive (byte :: rest)) (bytes : Bytes) :
    motive bytes := by
  induction size : bytes.length using Nat.strong_induction_on generalizing bytes with
  | _ length ih =>
      subst size
      cases bytes with
      | nil => exact nil
      | cons byte rest =>
          cases read : readChar? (byte :: rest) with
          | none => exact stray byte rest read (ih rest.length (by simp) rest rfl)
          | some found =>
              obtain ⟨-, behind, split⟩ := @charBytes_of_readChar? _ found.1 found.2 read
              have positive := List.length_pos_iff.mpr (charBytes_ne_nil found.1)
              rw [split]
              apply char
              apply ih behind.length _ behind rfl
              rw [split, List.length_append]
              omega

/-! ### Writing -/

theorem encode_append (left right : Text) : encode (left ++ right) = encode left ++ encode right :=
  List.flatMap_append

theorem encode_cons (symbol : Symbol) (rest : Text) : encode (symbol :: rest) = symbolBytes symbol ++ encode rest :=
  List.flatMap_cons

theorem strayBytes_of_unread {byte : UInt8} {rest : Bytes} (unread : readChar? (byte :: rest) = none) :
    symbolBytes (.stray (Fin.ofNat 128 byte.toNat)) = [byte] := by
  have large : ¬byte.toNat < 0x80 := by
    intro small
    simp only [readChar?] at unread
    rw [if_pos small] at unread
    cases unread
  have top := byte.toNat_lt
  have low : (Fin.ofNat 128 byte.toNat).val = byte.toNat % 128 := rfl
  rw [symbolBytes, low, ofNat_of_toNat byte (by omega)]

/-- Writing what was read gives the bytes back. -/
theorem encode_decode (bytes : Bytes) : encode (decode bytes) = bytes := by
  induction bytes using bytes_induction with
  | nil => rfl
  | char char rest ih =>
      rw [decode_char, encode_cons, ih]
      rfl
  | stray byte rest unread ih =>
      rw [decode_stray unread, encode_cons, ih, strayBytes_of_unread unread]
      rfl

/-! ### Texts that can be read back -/

/-- Whether no stray byte of a text forms a character with what stands behind it. -/
def StraysApart : Text → Prop
  | [] => True
  | .glyph _ :: rest => StraysApart rest
  | .stray low :: rest => readChar? (encode (.stray low :: rest)) = none ∧ StraysApart rest

theorem straysApart_decode (bytes : Bytes) : StraysApart (decode bytes) := by
  induction bytes using bytes_induction with
  | nil => exact trivial
  | char char rest ih =>
      rw [decode_char]
      exact ih
  | stray byte rest unread ih =>
      have written := encode_decode (byte :: rest)
      rw [decode_stray unread] at written ⊢
      refine ⟨?_, ih⟩
      rw [written]
      exact unread

/-- Reading what was written gives the text back. -/
theorem decode_encode {text : Text} (apart : StraysApart text) : decode (encode text) = text := by
  induction text with
  | nil => rfl
  | cons symbol rest ih =>
      cases symbol with
      | glyph char =>
          rw [encode_cons, symbolBytes, decode_char, ih apart]
      | stray low =>
          obtain ⟨unread, restApart⟩ := apart
          rw [encode_cons, symbolBytes, List.singleton_append] at unread ⊢
          have small := low.isLt
          have same : Fin.ofNat 128 (UInt8.ofNat (0x80 + low.val)).toNat = low := by
            apply Fin.ext
            rw [toNat_ofNat_of_lt (by omega)]
            change (0x80 + low.val) % 128 = low.val
            omega
          rw [decode_stray unread, ih restApart, same]

/-- A character keeps the stray bytes before it apart from those behind it. -/
theorem straysApart_around {left right : Text} {char : Char} :
    StraysApart (left ++ .glyph char :: right) ↔ StraysApart left ∧ StraysApart right := by
  induction left with
  | nil => simp only [List.nil_append, StraysApart, true_and]
  | cons symbol rest ih =>
      cases symbol with
      | glyph other => exact ih
      | stray low =>
          have same : readChar? (encode (.stray low :: (rest ++ .glyph char :: right))) =
              readChar? (encode (.stray low :: rest)) := by
            rw [← List.cons_append, encode_append, encode_cons (.glyph char)]
            apply readChar?_append
            · exact List.cons_ne_nil _ _
            · exact charBytes_head char (encode right)
          rw [List.cons_append, StraysApart, StraysApart, same, ih, and_assoc]

/-- So do several characters, whichever they are. -/
theorem straysApart_exchange {left middle right : Text} (nonempty : middle ≠ [])
    (glyphs : ∀ symbol ∈ middle, symbol.char?.isSome = true) :
    StraysApart (left ++ (middle ++ right)) ↔ StraysApart left ∧ StraysApart right := by
  induction middle generalizing left with
  | nil => exact absurd rfl nonempty
  | cons symbol more ih =>
      cases symbol with
      | stray low => cases glyphs (.stray low) List.mem_cons_self
      | glyph char =>
          rw [List.cons_append, straysApart_around]
          cases more with
          | nil => rfl
          | cons next others =>
              have behind := @ih [] (List.cons_ne_nil _ _) fun symbol member =>
                glyphs symbol (List.mem_cons_of_mem _ member)
              rw [List.nil_append] at behind
              rw [behind, StraysApart, true_and]

end AccessorLint.Text
