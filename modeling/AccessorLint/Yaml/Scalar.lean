import AccessorLint.Value.Basic
import AccessorLint.Text.Class
set_option autoImplicit false

/-!
Plain scalars of YAML: what a text without quotes means.

A few words are truth values or null, numerals are numbers, and everything else is text.  Whole numbers may be
binary, octal, decimal, hexadecimal or sexagesimal; a number with a fraction needs a point.  Underscores inside
numerals mean nothing.
-/

namespace AccessorLint.Yaml

/-! ### Words -/

def trueWords : List Text := ["yes", "Yes", "YES", "true", "True", "TRUE", "on", "On", "ON"]

def falseWords : List Text := ["no", "No", "NO", "false", "False", "FALSE", "off", "Off", "OFF"]

def nullWords : List Text := ["", "~", "null", "Null", "NULL"]

def infinityWords : List Text := [".inf", ".Inf", ".INF"]

/-- The words for what is no number. -/
def undefinedWords : List Text := [".nan", ".NaN", ".NAN"]

/-- The words with a meaning that settings have no use for. -/
def refusedWords : List Text := ["=", "<<"]

/-! ### Numerals -/

def isDigit (symbol : Symbol) : Bool :=
  symbol.satisfies Char.isDigit

/-- Whether the symbol is an ASCII digit or an underscore. -/
def isDigitOrUnderscore (symbol : Symbol) : Bool :=
  isDigit symbol || symbol = .glyph '_'

/-- The value of a digit in any base up to sixteen. -/
def digitValue? : Symbol → Option Nat
  | .glyph char =>
      if char.isDigit then some (char.toNat - '0'.toNat)
      else if 'a' ≤ char && char ≤ 'f' then some (char.toNat - 'a'.toNat + 10)
      else if 'A' ≤ char && char ≤ 'F' then some (char.toNat - 'A'.toNat + 10)
      else none
  | .stray _ => none

/-- The number of digits in a base.  Underscores are passed over; there has to be a digit. -/
def digits? (base : Nat) (text : Text) : Option Nat :=
  let digits := text.filter (· ≠ .glyph '_')
  if digits.isEmpty then none
  else
    digits.foldl (fun number symbol => do
      let high ← number
      let low ← digitValue? symbol
      if low < base then some (base * high + low) else none) (some 0)

/-- The sign of a numeral, and the rest. -/
def signed (text : Text) : Bool × Text :=
  match text with
  | .glyph '-' :: rest => (true, rest)
  | .glyph '+' :: rest => (false, rest)
  | _ => (false, text)

/-- A number of minutes or seconds: one digit, or two of which the first is below six. -/
def sixtieth? (text : Text) : Option Nat := do
  let number ← digits? 10 text
  if text.all isDigit && text.length ≤ 2 && number < 60 then some number else none

/-- The number of sexagesimal parts, the highest first. -/
def sexagesimal? : Nat → List Text → Option Nat
  | number, [] => some number
  | number, part :: rest => do
      let low ← sixtieth? part
      sexagesimal? (60 * number + low) rest

/-- The parts of a text between colons. -/
def colonParts : Text → List Text
  | [] => [[]]
  | symbol :: rest =>
      if symbol = .glyph ':' then [] :: colonParts rest
      else
        match colonParts rest with
        | [] => [[symbol]]
        | part :: later => (symbol :: part) :: later

/-- The whole number that a numeral without sign writes. -/
def unsignedWhole? (text : Text) : Option Nat :=
  match text with
  | .glyph '0' :: .glyph 'b' :: rest => digits? 2 rest
  | .glyph '0' :: .glyph 'x' :: rest => digits? 16 rest
  | .glyph '0' :: _ => digits? 8 text
  | first :: _ =>
      if !isDigit first then none
      else
        match colonParts text with
        | [numeral] => digits? 10 numeral
        | numeral :: parts => do
            let high ← digits? 10 numeral
            sexagesimal? high parts
        | [] => none
  | [] => none

/-- The whole number that a numeral writes. -/
def whole? (text : Text) : Option Int :=
  let (negative, rest) := signed text
  (unsignedWhole? rest).map fun number => if negative then -(number : Int) else number

/-- The power of ten that the end of a numeral gives: nothing, or `e` with a sign and digits. -/
def power? (text : Text) : Option Int :=
  match text with
  | [] => some 0
  | mark :: sign :: digits =>
      if mark.isOneOf "eE" && sign.isOneOf "+-" && digits.all isDigit then
        (digits? 10 digits).map fun number => if sign = .glyph '-' then -(number : Int) else number
      else none
  | _ => none

/-- The number that a numeral with a point writes. -/
def real? (text : Text) : Option Double :=
  let (negative, rest) := signed text
  let whole := rest.takeWhile isDigitOrUnderscore
  match rest.drop whole.length with
  | .glyph '.' :: after =>
      let fraction := after.takeWhile isDigitOrUnderscore
      let starts :=
        if whole.isEmpty then rest = text && fraction.head?.any isDigit else whole.head?.any isDigit
      if !starts then none
      else do
        let power ← power? (after.drop fraction.length)
        let places := fraction.filter isDigit
        let number ← digits? 10 (whole ++ places)
        some (Double.ofDecimal negative number (power - places.length))
  | _ => none

/-- What a plain scalar means.  A few words are refused. -/
def plain? (text : Text) : Option Scalar :=
  let (negative, rest) := signed text
  if nullWords.contains text then some .null
  else if trueWords.contains text then some (.bool true)
  else if falseWords.contains text then some (.bool false)
  else if refusedWords.contains text then none
  else if infinityWords.contains rest then some (.real (.infinite negative))
  else if undefinedWords.contains text then some (.real .undefined)
  else
    match whole? text, real? text with
    | some number, _ => some (.int number)
    | none, some number => some (.real number)
    | none, none => some (.text text)

end AccessorLint.Yaml
