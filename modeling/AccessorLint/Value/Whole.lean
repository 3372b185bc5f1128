import AccessorLint.Value.Shown
set_option autoImplicit false

/-!
Values read as whole numbers.
-/

namespace AccessorLint

/-- Why a value is no whole number. -/
inductive WholeError where
  /-- The text is not the numeral of a whole number. -/
  | notANumeral (text : Text)
  /-- The numeral has too many digits. -/
  | tooLong (digits : Nat)
  /-- The number has no whole part. -/
  | undefined
  /-- The number has no end. -/
  | infinite
  /-- The value is neither a text nor a number. -/
  | notANumber (kind : Text)
deriving DecidableEq, Repr

namespace WholeError

/-- The message of an error.  A long text is cut short. -/
def message : WholeError → Text
  | notANumeral text => "invalid literal for int() with base 10: " ++ text.quoted.take 200
  | tooLong digits =>
      "Exceeds the limit (4300 digits) for integer string conversion: value has " ++ Text.ofNat digits ++
        " digits; use sys.set_int_max_str_digits() to increase the limit"
  | undefined => "cannot convert float NaN to integer"
  | infinite => "cannot convert float infinity to integer"
  | notANumber kind =>
      "int() argument must be a string, a bytes-like object or a real number, not '" ++ kind ++ "'"

end WholeError

namespace Whole

/-- The number of digits that a numeral may have. -/
def maxDigits : Nat := 4300

/-- Whether a symbol may stand around a numeral.  Not every blank of ASCII may, but every other one. -/
def isSpace (symbol : Symbol) : Bool :=
  symbol.isOneOf " \t\n\x0b\x0c\r" || (0x80 ≤ symbol.code && symbol.isBlank)

def digitValue? (symbol : Symbol) : Option Nat :=
  symbol.char? >>= Text.decimalValue?

/-- The values of the digits with which a text starts, or goes on after a digit, and what follows them.  A single
underscore may stand between two digits. -/
def digits? : Bool → Text → Option (List Nat × Text)
  | afterDigit, [] => if afterDigit then some ([], []) else none
  | afterDigit, symbol :: rest =>
      if symbol = .glyph '_' then if afterDigit then digits? false rest else none
      else
        match digitValue? symbol with
        | some value => (digits? true rest).map fun (values, after) => (value :: values, after)
        | none => if afterDigit then some ([], symbol :: rest) else none

/-- The number with these digits, the highest first. -/
def ofDigits (values : List Nat) : Nat :=
  values.foldl (fun number value => 10 * number + value) 0

/-- Whether a text starts with a minus, and the text after its sign. -/
def unsigned : Text → Bool × Text
  | .glyph '-' :: rest => (true, rest)
  | .glyph '+' :: rest => (false, rest)
  | rest => (false, rest)

/-- The whole number that a text writes.  The digits are counted before the text after them is looked at. -/
def ofText (text : Text) : Except WholeError Int :=
  let (negative, numeral) := unsigned (text.dropWhile isSpace)
  match digits? false numeral with
  | none => .error (.notANumeral text)
  | some (values, after) =>
      if maxDigits < values.length then .error (.tooLong values.length)
      else if after.all isSpace then .ok (if negative then -(ofDigits values : Int) else ofDigits values)
      else .error (.notANumeral text)

end Whole

/-- The whole number of a value: the number that a text writes, the whole part of a number, one or zero for a truth
value. -/
def Value.whole : Value → Except WholeError Int
  | .scalar (.bool value) => .ok (if value then 1 else 0)
  | .scalar (.int value) => .ok value
  | .scalar (.real (.finite negative mantissa exponent)) => .ok (Double.truncated negative mantissa exponent)
  | .scalar (.real (.infinite _)) => .error .infinite
  | .scalar (.real .undefined) => .error .undefined
  | .scalar (.text value) => Whole.ofText value
  | other => .error (.notANumber other.kindName)

end AccessorLint
