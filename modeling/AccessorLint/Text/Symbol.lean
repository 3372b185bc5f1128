set_option autoImplicit false

/-!
Text as the linter reads it.

A source file is meant to be UTF-8, but the linter has to read, correct and write back files that are not.  A text
is therefore a list of symbols, and a symbol is either a character or a stray byte: one of the bytes `0x80` to
`0xFF` at a place where no character could be read.  Offsets into a text count symbols.

Stray bytes take the code points `0xDC80` to `0xDCFF` in the order of texts.  No character has these.
-/

namespace AccessorLint

/-- One place of a text. -/
inductive Symbol where
  /-- A character. -/
  | glyph (char : Char)
  /-- The byte `0x80 + low`, which belongs to no character. -/
  | stray (low : Fin 128)
deriving DecidableEq, Repr, Inhabited

/-- A text: its symbols in order. -/
abbrev Text := List Symbol

namespace Symbol

instance : Coe Char Symbol := ⟨glyph⟩

/-- The code point that orders symbols. -/
def code : Symbol → Nat
  | glyph char => char.toNat
  | stray low => 0xDC80 + low.val

/-- The character of a symbol, if it has one. -/
def char? : Symbol → Option Char
  | glyph char => some char
  | stray _ => none

/-- Whether the symbol is one of the characters of a list. -/
def isOneOf (symbol : Symbol) (chars : String) : Bool :=
  chars.toList.any fun char => symbol == glyph char

end Symbol

namespace Text

/-- The text of a string.  It has no stray bytes. -/
def ofString (string : String) : Text :=
  string.toList.map Symbol.glyph

instance : Coe String Text := ⟨ofString⟩

/-- The characters of a text, if it has no stray bytes. -/
def chars? : Text → Option (List Char)
  | [] => some []
  | symbol :: rest => do
      let char ← symbol.char?
      let others ← chars? rest
      pure (char :: others)

/-- The string of a text, if it has no stray bytes. -/
def toString? (text : Text) : Option String :=
  (chars? text).map String.ofList

/-- A character so many times. -/
def repeated (count : Nat) (char : Char) : Text :=
  List.replicate count (.glyph char)

/-- The written form of a natural number in base ten. -/
def ofNat (number : Nat) : Text :=
  (Nat.toDigits 10 number).map Symbol.glyph

/-- The written form of an integer in base ten. -/
def ofInt : Int → Text
  | .ofNat number => ofNat number
  | .negSucc number => .glyph '-' :: ofNat (number + 1)

/-- The lexicographic order of texts by code point: whether the first comes no later than the second. -/
def le : Text → Text → Bool
  | [], _ => true
  | _ :: _, [] => false
  | left :: lefts, right :: rights =>
      if left.code < right.code then true
      else if right.code < left.code then false
      else le lefts rights

def startsWith (text word : Text) : Bool :=
  word.isPrefixOf text

/-- The texts of a list in one, with a separator between neighbours. -/
def joined (separator : Text) (texts : List Text) : Text :=
  separator.intercalate texts

def occursIn (needle : Text) : Text → Bool
  | [] => needle.isEmpty
  | symbol :: rest => needle.isPrefixOf (symbol :: rest) || occursIn needle rest

end Text

end AccessorLint
