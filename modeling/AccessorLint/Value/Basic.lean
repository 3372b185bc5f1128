import AccessorLint.Value.Double
set_option autoImplicit false

/-!
Values as settings files hold them: scalars, lists, and mappings that keep the order of their entries.
-/

namespace AccessorLint

/-- A value that may be the key of a mapping. -/
inductive Scalar where
  | null
  | bool (value : Bool)
  | int (value : Int)
  | real (value : Double)
  | text (value : Text)
deriving DecidableEq, Repr

inductive Value where
  | scalar (value : Scalar)
  | list (items : List Value)
  | mapping (entries : List (Scalar × Value))
deriving Repr

instance : Inhabited Value := ⟨.scalar .null⟩

/-- The entries of a mapping, in order. -/
abbrev Entries := List (Scalar × Value)

namespace Scalar

/-- The whole number that a scalar equals as a key: truth values count as one and zero. -/
def whole? : Scalar → Option Int
  | bool value => some (if value then 1 else 0)
  | int value => some value
  | real value => value.whole?
  | _ => none

/-- Whether two scalars are the same key.  Equal numbers are, of whatever kind. -/
def same (left right : Scalar) : Bool :=
  match left.whole?, right.whole? with
  | some first, some second => first == second
  | none, none => left == right
  | _, _ => false

/-- Whether the scalar counts as true: it is not null, false, zero or empty. -/
def isTruthy : Scalar → Bool
  | null => false
  | bool value => value
  | int value => value != 0
  | real value => !value.isZero
  | text value => !value.isEmpty

end Scalar

namespace Value

@[match_pattern] def null : Value := .scalar .null

@[match_pattern] def bool (value : Bool) : Value := .scalar (.bool value)

/-- A whole number. -/
@[match_pattern] def int (value : Int) : Value := .scalar (.int value)

@[match_pattern] def text (value : Text) : Value := .scalar (.text value)

/-- Whether the value counts as true: a collection does if it has items. -/
def isTruthy : Value → Bool
  | scalar value => value.isTruthy
  | list items => !items.isEmpty
  | mapping entries => !entries.isEmpty

def kindName : Value → Text
  | scalar .null => "NoneType"
  | scalar (.bool _) => "bool"
  | scalar (.int _) => "int"
  | scalar (.real _) => "float"
  | scalar (.text _) => "str"
  | list _ => "list"
  | mapping _ => "dict"

end Value

namespace Entries

def get? (key : Scalar) : Entries → Option Value
  | [] => none
  | (first, value) :: rest => if first.same key then some value else get? key rest

/-- The entries with a key bound to a value.  A key that is there keeps its place. -/
def set (key : Scalar) (value : Value) : Entries → Entries
  | [] => [(key, value)]
  | (first, old) :: rest => if first.same key then (first, value) :: rest else (first, old) :: set key value rest

def find? (entries : Entries) (name : Text) : Option Value :=
  entries.get? (.text name)

/-- The value bound to a name if it counts as true. -/
def truthy? (entries : Entries) (name : Text) : Option Value :=
  (entries.find? name).filter Value.isTruthy

end Entries

/-! ### Merging -/

mutual

/-- A value laid over another.  Two mappings are merged; otherwise the value on top wins. -/
def Value.over (below : Option Value) : Value → Value
  | .scalar value => .scalar value
  | .list items => .list items
  | .mapping entries =>
      match below with
      | some (.mapping base) => .mapping (Entries.merge base entries)
      | _ => .mapping entries

/-- Entries laid over others, one at a time. -/
def Entries.merge (base : Entries) : Entries → Entries
  | [] => base
  | (key, value) :: rest => Entries.merge (base.set key (Value.over (base.get? key) value)) rest

end

end AccessorLint
