import AccessorLint.Text.Utf8
set_option autoImplicit false

/-!
Digests: short names for texts, computed by MD5.  They identify, they do not protect.
-/

namespace AccessorLint.Text

namespace Digest

/-- The four words of the state. -/
structure State where
  a : UInt32
  b : UInt32
  c : UInt32
  d : UInt32
deriving DecidableEq, Repr

/-- The state before the first block. -/
def initial : State := ⟨0x67452301, 0xEFCDAB89, 0x98BADCFE, 0x10325476⟩

/-- The constant added in each round. -/
def constants : List UInt32 :=
   [0xD76AA478, 0xE8C7B756, 0x242070DB, 0xC1BDCEEE, 0xF57C0FAF, 0x4787C62A, 0xA8304613,
    0xFD469501, 0x698098D8, 0x8B44F7AF, 0xFFFF5BB1, 0x895CD7BE, 0x6B901122, 0xFD987193,
    0xA679438E, 0x49B40821, 0xF61E2562, 0xC040B340, 0x265E5A51, 0xE9B6C7AA, 0xD62F105D,
    0x02441453, 0xD8A1E681, 0xE7D3FBC8, 0x21E1CDE6, 0xC33707D6, 0xF4D50D87, 0x455A14ED,
    0xA9E3E905, 0xFCEFA3F8, 0x676F02D9, 0x8D2A4C8A, 0xFFFA3942, 0x8771F681, 0x6D9D6122,
    0xFDE5380C, 0xA4BEEA44, 0x4BDECFA9, 0xF6BB4B60, 0xBEBFBC70, 0x289B7EC6, 0xEAA127FA,
    0xD4EF3085, 0x04881D05, 0xD9D4D039, 0xE6DB99E5, 0x1FA27CF8, 0xC4AC5665, 0xF4292244,
    0x432AFF97, 0xAB9423A7, 0xFC93A039, 0x655B59C3, 0x8F0CCC92, 0xFFEFF47D, 0x85845DD1,
    0x6FA87E4F, 0xFE2CE6E0, 0xA3014314, 0x4E0811A1, 0xF7537E82, 0xBD3AF235, 0x2AD7D2BB,
    0xEB86D391]

/-- The amounts by which the four turns of a group of rounds rotate, for each quarter of the rounds. -/
def rotations : List (List UInt32) := [[7, 12, 17, 22], [5, 9, 14, 20], [4, 11, 16, 23], [6, 10, 15, 21]]

/-- The mixing function of a round, and the word of the block that it takes. -/
def mix (round : Nat) (state : State) : UInt32 × Nat :=
  match round / 16 with
  | 0 => ((state.b &&& state.c) ||| (~~~state.b &&& state.d), round)
  | 1 => ((state.d &&& state.b) ||| (~~~state.d &&& state.c), (5 * round + 1) % 16)
  | 2 => (state.b ^^^ state.c ^^^ state.d, (3 * round + 5) % 16)
  | _ => (state.c ^^^ (state.b ||| ~~~state.d), (7 * round) % 16)

def rotateLeft (word amount : UInt32) : UInt32 :=
  (word <<< amount) ||| (word >>> (32 - amount))

/-- One round on a block of sixteen words. -/
def round (block : List UInt32) (state : State) (turn : UInt32 × Nat) : State :=
  let (mixed, index) := mix turn.2 state
  let sum := mixed + state.a + turn.1 + block.getD index 0
  let amount := (rotations.getD (turn.2 / 16) []).getD (turn.2 % 4) 0
  ⟨state.d, state.b + rotateLeft sum amount, state.b, state.c⟩

def absorb (state : State) (block : List UInt32) : State :=
  let mixed := constants.zipIdx.foldl (round block) state
  ⟨state.a + mixed.a, state.b + mixed.b, state.c + mixed.c, state.d + mixed.d⟩

/-- The bytes of a number, the lowest first. -/
def littleEndian (count number : Nat) : Bytes :=
  (List.range count).map fun index => UInt8.ofNat (number / Nat.pow 256 index % 256)

/-- The bytes with a mark, zeros and their number of bits, which makes whole blocks of 64 bytes. -/
def padded (bytes : Bytes) : Bytes :=
  bytes ++ [0x80] ++ List.replicate ((119 - bytes.length % 64) % 64) 0 ++ littleEndian 8 (8 * bytes.length)

/-- The words of some bytes, four bytes to a word. -/
def words : Bytes → List UInt32
  | first :: second :: third :: fourth :: rest =>
      UInt32.ofNat (first.toNat + 0x100 * second.toNat + 0x10000 * third.toNat + 0x1000000 * fourth.toNat) ::
        words rest
  | _ => []

/-- Cuts a list into pieces of a length, of which there are at most so many. -/
def pieces {α : Type} (length : Nat) : Nat → List α → List (List α)
  | 0, _ => []
  | count + 1, list =>
      if list.isEmpty then [] else list.take length :: pieces length count (list.drop length)

/-- The sixteen bytes of the digest. -/
def ofBytes (bytes : Bytes) : Bytes :=
  let blocks := words (padded bytes)
  let final := (pieces 16 blocks.length blocks).foldl absorb initial
  [final.a, final.b, final.c, final.d].flatMap fun word => littleEndian 4 word.toNat

def hexDigit (value : Nat) : Char :=
  (Nat.digitChar value)

def hex (bytes : Bytes) : Text :=
  bytes.flatMap fun byte => [.glyph (hexDigit (byte.toNat / 16)), .glyph (hexDigit (byte.toNat % 16))]

end Digest

end AccessorLint.Text
