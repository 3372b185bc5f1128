import AccessorLint.Value.Basic
import AccessorLint.Text.Quoted
set_option autoImplicit false

/-!
Values as messages show them.
-/

namespace AccessorLint

/-- A scalar as messages show it. -/
def Scalar.shown : Scalar → Text
  | null => "None"
  | bool value => if value then "True" else "False"
  | int value => Text.ofInt value
  | real value => value.text
  | text value => value.quoted

/-- A scalar in running text: a text stands without quotes. -/
def Scalar.plain : Scalar → Text
  | text value => value
  | other => other.shown

mutual

/-- A value as messages show it. -/
def Value.shown : Value → Text
  | .scalar value => value.shown
  | .list items => "[" ++ Value.shownItems items ++ "]"
  | .mapping entries => "\x7b" ++ Value.shownEntries entries ++ "\x7d"

/-- The items of a list, with commas between them. -/
def Value.shownItems : List Value → Text
  | [] => []
  | [item] => Value.shown item
  | item :: rest => Value.shown item ++ ", " ++ Value.shownItems rest

/-- The entries of a mapping, with commas between them. -/
def Value.shownEntries : List (Scalar × Value) → Text
  | [] => []
  | [(key, value)] => key.shown ++ ": " ++ Value.shown value
  | (key, value) :: rest => key.shown ++ ": " ++ Value.shown value ++ ", " ++ Value.shownEntries rest

end

end AccessorLint
