import AccessorLint.Text.Class
set_option autoImplicit false

/-!
Quoted text, as messages show it: on one line, between quotes, with escapes for what could not be read otherwise.
-/

namespace AccessorLint.Text

/-- The hexadecimal digits of a number, with zeros in front up to a width. -/
def hexadecimal (width number : Nat) : Text :=
  let digits := (Nat.toDigits 16 number).map Symbol.glyph
  repeated (width - digits.length) '0' ++ digits

/-- The escape of a code point, in the shortest of the three widths. -/
def escape (code : Nat) : Text :=
  if code < 0x100 then "\\x" ++ hexadecimal 2 code
  else if code < 0x10000 then "\\u" ++ hexadecimal 4 code
  else "\\U" ++ hexadecimal 8 code

def quotedSymbol (quote : Char) : Symbol → Text
  | .glyph char =>
      if char = quote || char = '\\' then [.glyph '\\', .glyph char]
      else if char = '\n' then "\\n"
      else if char = '\r' then "\\r"
      else if char = '\t' then "\\t"
      else if isPrintable char then [.glyph char]
      else escape char.toNat
  | .stray low => escape (Symbol.stray low).code

/-- A text between quotes: single ones, unless it has a single quote and no double one. -/
def quoted (text : Text) : Text :=
  let quote := if text.contains (.glyph '\'') && !text.contains (.glyph '"') then '"' else '\''
  .glyph quote :: text.flatMap (quotedSymbol quote) ++ [.glyph quote]

end AccessorLint.Text
