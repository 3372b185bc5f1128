import AccessorLint.Text.Class
set_option autoImplicit false

/-!
Lines, and blanks at the ends of a text.  A newline divides lines, so a text has one line more than it has
newlines; a carriage return is an ordinary symbol.
-/

namespace AccessorLint

namespace Symbol

/-- The symbol that divides lines. -/
def newline : Symbol := .glyph '\n'

end Symbol

namespace Text

/-- The parts of a text between the places where a symbol divides it. -/
def split (divider : Symbol) : Text → List Text
  | [] => [[]]
  | symbol :: rest =>
      if symbol = divider then [] :: split divider rest
      else
        match split divider rest with
        | [] => [[symbol]]
        | part :: later => (symbol :: part) :: later

/-- The lines of a text, without the newlines that divide them. -/
def lines (text : Text) : List Text :=
  split Symbol.newline text

def unlines (parts : List Text) : Text :=
  joined [Symbol.newline] parts

def firstLine (text : Text) : Text :=
  text.takeWhile fun symbol => symbol != Symbol.newline

/-- The text without the blanks at its start. -/
def trimLeft (text : Text) : Text :=
  text.dropWhile Symbol.isBlank

/-- The text without the blanks at its end. -/
def trimRight (text : Text) : Text :=
  (text.reverse.dropWhile Symbol.isBlank).reverse

/-- The text without the blanks at either end. -/
def trim (text : Text) : Text :=
  trimRight (trimLeft text)

end Text

end AccessorLint
