import AccessorLint.Value.Basic
import AccessorLint.Text.Quoted
set_option autoImplicit false

/-!
Values as JSON, laid out over several lines: an item or an entry has a line of its own, indented by two spaces for
each collection around it.  Characters stand for themselves unless JSON has to escape them.
-/

namespace AccessorLint

namespace Json

/-- A character inside a JSON string. -/
def escaped : Symbol → Text
  | .glyph char =>
      if char = '"' then "\\\""
      else if char = '\\' then "\\\\"
      else if char = '\n' then "\\n"
      else if char = '\r' then "\\r"
      else if char = '\t' then "\\t"
      else if char = '\x08' then "\\b"
      else if char = '\x0c' then "\\f"
      else if char.toNat < 0x20 then "\\u" ++ Text.hexadecimal 4 char.toNat
      else [.glyph char]
  | .stray low => [.stray low]

def string (text : Text) : Text :=
  "\"" ++ text.flatMap escaped ++ "\""

/-- A number with a fraction. -/
def real : Double → Text
  | .infinite negative => if negative then "-Infinity" else "Infinity"
  | .undefined => "NaN"
  | number => number.text

/-- A scalar outside strings. -/
def scalar : Scalar → Text
  | .null => "null"
  | .bool value => if value then "true" else "false"
  | .int value => Text.ofInt value
  | .real value => real value
  | .text value => string value

/-- A key, which is always a string. -/
def key : Scalar → Text
  | .text value => string value
  | other => string (scalar other)

/-- A new line at a depth of nesting. -/
def lineBreak (depth : Nat) : Text :=
  .glyph '\n' :: Text.repeated (2 * depth) ' '

end Json

mutual

/-- The JSON of a value at a depth of nesting. -/
def Value.json (depth : Nat) : Value → Text
  | .scalar value => Json.scalar value
  | .list items =>
      if items.isEmpty then "[]"
      else "[" ++ Value.jsonItems (depth + 1) items ++ Json.lineBreak depth ++ "]"
  | .mapping entries =>
      if entries.isEmpty then "\x7b\x7d"
      else "\x7b" ++ Value.jsonEntries (depth + 1) entries ++ Json.lineBreak depth ++ "\x7d"

/-- The JSON of the items of a list, each on its line. -/
def Value.jsonItems (depth : Nat) : List Value → Text
  | [] => []
  | [item] => Json.lineBreak depth ++ Value.json depth item
  | item :: rest => Json.lineBreak depth ++ Value.json depth item ++ "," ++ Value.jsonItems depth rest

/-- The JSON of the entries of a mapping, each on its line. -/
def Value.jsonEntries (depth : Nat) : List (Scalar × Value) → Text
  | [] => []
  | [(name, value)] => Json.lineBreak depth ++ Json.key name ++ ": " ++ Value.json depth value
  | (name, value) :: rest =>
      Json.lineBreak depth ++ Json.key name ++ ": " ++ Value.json depth value ++ "," ++ Value.jsonEntries depth rest

end

end AccessorLint
