import AccessorLint.Report.Finding
set_option autoImplicit false

/-!
Accessor names: what may be wrong with the name of a method, and the names to take instead.

A method that takes arguments should not be called `get_…` or `set_…`.  A getter becomes `…_for`.  A setter becomes
`…=`, but in an API client, where a setter sends a request, the name should say which.
-/

namespace AccessorLint.Naming

/-- What the classification of a method says. -/
inductive Outcome where
  /-- Nothing is wrong. -/
  | skip
  /-- A getter that takes arguments. -/
  | getter
  /-- A setter that takes arguments. -/
  | setter
  /-- A setter of an API client that takes arguments. -/
  | apiSetter
deriving DecidableEq, Repr

namespace Outcome

def all : List Outcome := [skip, getter, setter, apiSetter]

def name : Outcome → Text
  | skip => "skip"
  | getter => "get_with_arguments"
  | setter => "set_with_arguments"
  | apiSetter => "set_with_arguments_api"

def template : Outcome → Text
  | skip => ""
  | getter =>
      "Avoid using `get_` prefix for methods with arguments. " ++
        "Consider using `\x7bname\x7d_for` or `find_\x7bname\x7d` instead."
  | setter =>
      "Avoid using `set_` prefix for methods with arguments. " ++
        "Consider using the `\x7bname\x7d=` setter instead."
  | apiSetter =>
      "Avoid using `set_` prefix for methods with arguments in API clients. " ++
        "Consider using `\x7bfirst\x7d`, `\x7bsecond\x7d` or `\x7bthird\x7d` instead."

def kind (outcome : Outcome) : ViolationKind :=
  ⟨outcome.name, outcome.template⟩

end Outcome

/-! ### Names -/

/-- How the names of getters start. -/
def getStart : Text := "get_"

/-- How the names of setters start. -/
def setStart : Text := "set_"

/-- What an accessor is about: its name without `get_` or `set_`. -/
def subject (name : Text) : Text :=
  if name.startsWith getStart then name.drop getStart.length
  else if name.startsWith setStart then name.drop setStart.length
  else name

/-- The names to take instead.  The first is the one that a correction takes. -/
def suggestions (name : Text) : Outcome → List Text
  | .skip => []
  | .getter => [subject name ++ "_for"]
  | .setter => [subject name ++ "="]
  | .apiSetter => ["create_" ++ subject name, "put_" ++ subject name, "update_" ++ subject name]

/-- The texts that the template of an outcome asks for. -/
def bindings (name : Text) (outcome : Outcome) : Template.Bindings :=
  let own : Template.Bindings := [(Text.ofString "name", subject name)]
  match outcome with
  | .apiSetter =>
      let names : List Text := ["first", "second", "third"]
      own ++ names.zip (suggestions name outcome)
  | _ => own

def message (name : Text) (outcome : Outcome) : Except Template.TemplateError Text :=
  Template.fill outcome.template (bindings name outcome)

/-- Whether the new name would be one: what the accessor is about is neither empty nor starts with a digit, and does
not end with a mark after which nothing can follow. -/
def canRename (name : Text) : Bool :=
  match (subject name).head?, (subject name).getLast? with
  | some first, some last => !first.isDigit && !last.isOneOf "=?!"
  | _, _ => false

end AccessorLint.Naming
