import AccessorLint.Text.Digest
import AccessorLint.Text.Quoted
set_option autoImplicit false

/-!
Strict UTF-8: decoding that refuses bytes which belong to no character, and encoding that refuses stray bytes.
Both tell what they met and where.
-/

namespace AccessorLint.Text

/-! ### Decoding -/

/-- What is wrong with bytes that belong to no character. -/
inductive DecodingFault where
  /-- No character starts with the byte. -/
  | badStart
  /-- A character starts, and a byte follows with which it cannot go on. -/
  | badContinuation
  /-- A character starts, and the bytes end before it does. -/
  | truncated
deriving DecidableEq, Repr

/-- Bytes that belong to no character. -/
structure DecodingError where
  fault : DecodingFault
  position : Nat
  bytes : Bytes
deriving DecidableEq, Repr

def DecodingFault.message : DecodingFault → Text
  | badStart => "invalid start byte"
  | badContinuation => "invalid continuation byte"
  | truncated => "unexpected end of data"

def DecodingError.message (error : DecodingError) : Text :=
  let place : Text :=
    match error.bytes with
    | [byte] => "byte 0x" ++ hexadecimal 2 byte.toNat ++ " in position " ++ ofNat error.position
    | bytes =>
        "bytes in position " ++ ofNat error.position ++ "-" ++ ofNat (error.position + bytes.length - 1)
  "'utf-8' codec can't decode " ++ place ++ ": " ++ error.fault.message

/-- Whether a character that starts with a byte can go on with another. -/
def canFollow (first second : UInt8) : Bool :=
  let low : UInt8 := if first = 0xE0 then 0xA0 else if first = 0xF0 then 0x90 else 0x80
  let high : UInt8 := if first = 0xED then 0x9F else if first = 0xF4 then 0x8F else 0xBF
  low ≤ second && second ≤ high

/-- The number of bytes of a character by its first byte.  With some bytes no character starts. -/
def charLength? (first : UInt8) : Option Nat :=
  if 0xC2 ≤ first && first ≤ 0xDF then some 2
  else if 0xE0 ≤ first && first ≤ 0xEF then some 3
  else if 0xF0 ≤ first && first ≤ 0xF4 then some 4
  else none

/-- The fault of bytes with which no character can be read, and how many of them are to blame. -/
def faultOf : Bytes → DecodingFault × Nat
  | [] => (.truncated, 0)
  | first :: rest =>
      match charLength? first with
      | none => (.badStart, 1)
      | some length =>
          let starts := rest.head?.any (canFollow first)
          let valid := if starts then 1 + ((rest.drop 1).takeWhile fun byte => (continuation? byte).isSome).length else 0
          let good := min valid (length - 1)
          if good = rest.length then (.truncated, 1 + good) else (.badContinuation, 1 + good)

/-- Reads bytes from a position on, the first so many of which belong to a character that has been read.  Bytes that
end too early are counted from their own start. -/
def decodeStrictAfter : Nat → Nat → Bytes → Except DecodingError Text
  | _, _, [] => .ok []
  | read + 1, position, _ :: rest => decodeStrictAfter read (position + 1) rest
  | 0, position, first :: rest =>
      match readChar? (first :: rest) with
      | some (char, length) => do
          let text ← decodeStrictAfter length (position + 1) rest
          pure (.glyph char :: text)
      | none =>
          let (fault, count) := faultOf (first :: rest)
          .error ⟨fault, if fault = .truncated then 0 else position, (first :: rest).take count⟩

/-- The text of bytes, if all belong to characters. -/
def decodeStrict (bytes : Bytes) : Except DecodingError Text :=
  decodeStrictAfter 0 0 bytes

/-! ### Encoding -/

/-- Stray bytes in a text: the first of them, its offset, and how many stand together. -/
structure EncodingError where
  first : Symbol
  position : Nat
  count : Nat
deriving DecidableEq, Repr

def EncodingError.message (error : EncodingError) : Text :=
  let place : Text :=
    if error.count = 1 then
      "character '" ++ escape error.first.code ++ "' in position " ++ ofNat error.position
    else "characters in position " ++ ofNat error.position ++ "-" ++ ofNat (error.position + error.count - 1)
  "'utf-8' codec can't encode " ++ place ++ ": surrogates not allowed"

def isStray (symbol : Symbol) : Bool :=
  symbol.char?.isNone

/-- The first stray bytes of a text, if it has any. -/
def strays? (text : Text) : Option EncodingError :=
  let behind := text.takeWhile fun symbol => !isStray symbol
  match text.drop behind.length with
  | [] => none
  | first :: rest => some ⟨first, behind.length, 1 + (rest.takeWhile isStray).length⟩

/-- The bytes of a text, if it has no stray ones. -/
def encodeStrict (text : Text) : Except EncodingError Bytes :=
  match strays? text with
  | some error => .error error
  | none => .ok (encode text)

/-- The first sixteen hexadecimal digits of the digest of a text.  Stray bytes have none. -/
def digest (text : Text) : Except EncodingError Text := do
  let bytes ← encodeStrict text
  pure ((Digest.hex (Digest.ofBytes bytes)).take 16)

end AccessorLint.Text
