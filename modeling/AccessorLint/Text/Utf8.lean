import AccessorLint.Text.Symbol
set_option autoImplicit false

/-!
UTF-8 with stray bytes.  Reading never fails: a byte at which no character can be read becomes a stray symbol, so
writing the text gives back the bytes it was read from.
-/

namespace AccessorLint.Text

/-- The contents of a file. -/
abbrev Bytes := List UInt8

/-! ### Reading -/

/-- The six low bits of a continuation byte. -/
def continuation? (byte : UInt8) : Option Nat :=
  if 0x80 ≤ byte.toNat && byte.toNat < 0xC0 then some (byte.toNat - 0x80) else none

/-- The character at the start of some bytes, and the number of bytes it takes after the first.  Forms longer than
needed, surrogates and code points beyond the last are no characters. -/
def readChar? : Bytes → Option (Char × Nat)
  | [] => none
  | first :: rest =>
      let lead := first.toNat
      if lead < 0x80 then some (Char.ofNat lead, 0)
      else if lead < 0xC0 then none
      else if lead < 0xE0 then do
        let low ← rest.head? >>= continuation?
        let code := (lead - 0xC0) * 0x40 + low
        if 0x80 ≤ code then some (Char.ofNat code, 1) else none
      else if lead < 0xF0 then do
        let middle ← rest.head? >>= continuation?
        let low ← rest[1]? >>= continuation?
        let code := ((lead - 0xE0) * 0x40 + middle) * 0x40 + low
        if 0x800 ≤ code && code.isValidChar then some (Char.ofNat code, 2) else none
      else do
        let high ← rest.head? >>= continuation?
        let middle ← rest[1]? >>= continuation?
        let low ← rest[2]? >>= continuation?
        let code := (((lead - 0xF0) * 0x40 + high) * 0x40 + middle) * 0x40 + low
        if 0x10000 ≤ code && code.isValidChar then some (Char.ofNat code, 3) else none

/-- Reads bytes, the first so many of which belong to a character that has been read. -/
def decodeAfter : Nat → Bytes → Text
  | _, [] => []
  | read + 1, _ :: rest => decodeAfter read rest
  | 0, first :: rest =>
      match readChar? (first :: rest) with
      | some (char, length) => .glyph char :: decodeAfter length rest
      | none => .stray (Fin.ofNat 128 first.toNat) :: decodeAfter 0 rest

/-- The text of a file. -/
def decode (bytes : Bytes) : Text :=
  decodeAfter 0 bytes

/-! ### Writing -/

def charBytes (char : Char) : Bytes :=
  let code := char.toNat
  let tail (shift : Nat) : UInt8 := UInt8.ofNat (0x80 + code / shift % 0x40)
  if code < 0x80 then [UInt8.ofNat code]
  else if code < 0x800 then [UInt8.ofNat (0xC0 + code / 0x40), tail 1]
  else if code < 0x10000 then [UInt8.ofNat (0xE0 + code / 0x1000), tail 0x40, tail 1]
  else [UInt8.ofNat (0xF0 + code / 0x40000), tail 0x1000, tail 0x40, tail 1]

def symbolBytes : Symbol → Bytes
  | .glyph char => charBytes char
  | .stray low => [UInt8.ofNat (0x80 + low.val)]

def encode (text : Text) : Bytes :=
  text.flatMap symbolBytes

def hasStray (text : Text) : Bool :=
  text.any fun symbol => symbol.char?.isNone

end AccessorLint.Text
