import AccessorLint.Text.Symbol
import AccessorLint.Text.Letter
import AccessorLint.Text.Numeral
import AccessorLint.Text.Blank
import AccessorLint.Text.Case
import AccessorLint.Text.Printable
set_option autoImplicit false

/-!
The classes of symbols that scanning, trimming and matching ask about.  A stray byte is in none of them.
-/

namespace AccessorLint

namespace Text

def isLetter (char : Char) : Bool :=
  letters.holds char.toNat

/-- Whether the character is a digit of positional notation. -/
def isDecimal (char : Char) : Bool :=
  decimalDigits.holds char.toNat

/-- Whether the character is a digit, in whatever position or shape. -/
def isDigit (char : Char) : Bool :=
  isDecimal char || markedDigits.holds char.toNat

/-- Whether the character is a letter or has a numeric value. -/
def isAlphanumeric (char : Char) : Bool :=
  isLetter char || isDigit char || otherNumerals.holds char.toNat

/-- Whether the character may stand inside a word: a letter, a numeral or `_`. -/
def isWordChar (char : Char) : Bool :=
  isAlphanumeric char || char == '_'

def isBlank (char : Char) : Bool :=
  blanks.holds char.toNat

/-- Whether the character is an ASCII letter or `_`, which may start an identifier. -/
def isNameStart (char : Char) : Bool :=
  char.isAlpha || char == '_'

/-- The value of a digit of positional notation. -/
def decimalValue? (char : Char) : Option Nat :=
  (decimalDigits.find? fun run => decide (run.1 ≤ char.toNat) && decide (char.toNat ≤ run.2)).map
    fun run => (char.toNat - run.1) % 10

end Text

namespace Symbol

/-- Whether the symbol is a character with the property. -/
def satisfies (property : Char → Bool) : Symbol → Bool
  | glyph char => property char
  | stray _ => false

def isLetter : Symbol → Bool := satisfies Text.isLetter

/-- Whether the symbol is a digit of positional notation. -/
def isDecimal : Symbol → Bool := satisfies Text.isDecimal

def isDigit : Symbol → Bool := satisfies Text.isDigit

/-- Whether the symbol is a letter or a numeral. -/
def isAlphanumeric : Symbol → Bool := satisfies Text.isAlphanumeric

/-- Whether the symbol may stand inside a word. -/
def isWord : Symbol → Bool := satisfies Text.isWordChar

def isBlank : Symbol → Bool := satisfies Text.isBlank

/-- Whether the symbol may start an identifier. -/
def isNameStart : Symbol → Bool := satisfies Text.isNameStart

/-- Whether the symbol may continue an ASCII identifier. -/
def isNamePart : Symbol → Bool := satisfies fun char => char.isAlphanum || char == '_'

end Symbol

namespace Text

/-- Whether the character is a capital letter. -/
def isCapital (char : Char) : Bool :=
  capitals.holds char.toNat

/-- Whether the character is a letter with a small part: a small letter, or one in title case. -/
def hasSmallPart (char : Char) : Bool :=
  smalls.holds char.toNat || titles.holds char.toNat

/-- Whether a text is written in capitals: it has a capital letter and no small one.  Characters without case do
not count. -/
def isInCapitals (text : Text) : Bool :=
  text.any (Symbol.satisfies isCapital) && !text.any (Symbol.satisfies hasSmallPart)

/-- Whether the character shows as itself in a quoted text. -/
def isPrintable (char : Char) : Bool :=
  printables.holds char.toNat

end Text

end AccessorLint
