import AccessorLint.Text.Class
import AccessorLint.Value.Shown
set_option autoImplicit false

/-!
Arguments of the command line.

A switch has a long name, and some have a short one.  A long name may be shortened as long as it is clear which is
meant, and a value may follow it after an equals sign.  Short switches may be written together, and a value may follow
them directly.  What is no switch and belongs to none is not understood.
-/

namespace AccessorLint

inductive Switch where
  | help
  | config
  | projectRoot
  | files
  | autocorrect
  | listRules
  | jsonOutput
  | plainOutput
  | verbose
  | version
deriving DecidableEq, Repr

/-- How many values a switch takes. -/
inductive Arity where
  | none
  | one
  | many
deriving DecidableEq, Repr

namespace Switch

/-- All switches, in the order in which they are listed. -/
def all : List Switch :=
  [help, config, projectRoot, files, autocorrect, listRules, jsonOutput, plainOutput, verbose, version]

def names : Switch → List Text
  | help => ["-h", "--help"]
  | config => ["--config", "-c"]
  | projectRoot => ["--project-root", "-p"]
  | files => ["--files", "-f"]
  | autocorrect => ["--autocorrect", "-a"]
  | listRules => ["--list-rules"]
  | jsonOutput => ["--json-output", "-j"]
  | plainOutput => ["--plain-output"]
  | verbose => ["--verbose", "-v"]
  | version => ["--version"]

/-- How many values a switch takes. -/
def arity : Switch → Arity
  | config | projectRoot => .one
  | files => .many
  | _ => .none

/-- All names, each with its switch. -/
def table : List (Text × Switch) :=
  all.flatMap fun switch => switch.names.map fun name => (name, switch)

def ofName? (name : Text) : Option Switch :=
  table.lookup name

/-- The switch with a short name. -/
def ofLetter? (letter : Symbol) : Option Switch :=
  ofName? [.glyph '-', letter]

end Switch

/-! ### Errors -/

/-- What is wrong with a switch. -/
inductive SwitchFault where
  | needsValue
  | needsValues
  /-- It takes no value and has one. -/
  | needlessValue (value : Text)
deriving DecidableEq, Repr

/-- Why arguments are not understood. -/
inductive UsageError where
  | ambiguous (given : Text) (names : List Text)
  | badSwitch (switch : Switch) (fault : SwitchFault)
  | unrecognized (arguments : List Text)
deriving DecidableEq, Repr

def SwitchFault.message : SwitchFault → Text
  | needsValue => "expected one argument"
  | needsValues => "expected at least one argument"
  | needlessValue value => "ignored explicit argument " ++ value.quoted

def UsageError.message : UsageError → Text
  | ambiguous given names => "ambiguous option: " ++ given ++ " could match " ++ Text.joined ", " names
  | badSwitch switch fault => "argument " ++ Text.joined "/" switch.names ++ ": " ++ fault.message
  | unrecognized arguments => "unrecognized arguments: " ++ Text.joined " " arguments

/-! ### Words -/

/-- What an argument looks like. -/
inductive Reading where
  | value
  /-- The divider after which there are no switches. -/
  | divider
  /-- A switch, whether by a short name, and the value written together with it. -/
  | switch (switch : Switch) (short : Bool) (attached : Option Text)
  /-- A switch that does not exist. -/
  | unknown
deriving DecidableEq, Repr

/-- An argument and what it looks like. -/
structure Word where
  text : Text
  reading : Reading
deriving DecidableEq, Repr

namespace Word

/-- What stands before the first equals sign, and what stands after it. -/
def splitAtEquals (text : Text) : Text × Option Text :=
  let name := text.takeWhile (· ≠ .glyph '=')
  match text.drop name.length with
  | [] => (name, none)
  | _ :: value => (name, some value)

/-- Whether a text is a negative number, which is a value.  A newline may end it. -/
def isNegativeNumber (text : Text) : Bool :=
  let bare := if text.getLast? = some (.glyph '\n') then text.dropLast else text
  let whole := (bare.drop 1).takeWhile Symbol.isDecimal
  match bare.drop (1 + whole.length) with
  | [] => !whole.isEmpty
  | .glyph '.' :: fraction => !fraction.isEmpty && fraction.all Symbol.isDecimal
  | _ => false

/-- Whether a text starts like a long name. -/
def isLong (text : Text) : Bool :=
  text.startsWith "--"

/-- The names that a text may stand for, with the value that is attached. -/
def candidates (text : Text) : List (Text × Reading) :=
  if isLong text then
    let (start, attached) := splitAtEquals text
    (Switch.table.filter fun (name, _) => name.startsWith start).map fun (name, switch) =>
      (name, .switch switch false attached)
  else
    (Switch.table.filter fun (name, _) => name = text.take 2).map fun (name, switch) =>
      (name, .switch switch true (some (text.drop 2)))

/-- What an argument looks like before the divider. -/
def readingOf (text : Text) : Except UsageError Reading :=
  let (name, attached) := splitAtEquals text
  if text.head? ≠ some (.glyph '-') then .ok .value
  else if let some switch := Switch.ofName? text then .ok (.switch switch (!isLong text) none)
  else if text.length = 1 then .ok .value
  else if let (some switch, some value) := (Switch.ofName? name, attached) then
    .ok (.switch switch (!isLong name) (some value))
  else
    match candidates text with
    | [(_, reading)] => .ok reading
    | [] => .ok (if isNegativeNumber text || text.contains (.glyph ' ') then .value else .unknown)
    | several => .error (.ambiguous text (several.map Prod.fst))

def readAll : List Text → Except UsageError (List Word)
  | [] => .ok []
  | text :: rest =>
      if text = "--" then .ok (⟨text, .divider⟩ :: rest.map fun later => ⟨later, .value⟩)
      else do
        let reading ← readingOf text
        let words ← readAll rest
        pure (⟨text, reading⟩ :: words)

end Word

/-! ### Uses of switches -/

/-- A switch and its values. -/
structure Use where
  switch : Switch
  values : List Text
deriving DecidableEq, Repr

def Word.isValue (word : Word) : Bool :=
  word.reading = .value

namespace Use

/-- The use of a switch without an attached value, and the words after it. -/
def separate (switch : Switch) (rest : List Word) : Except UsageError (List Use × List Word) :=
  let values := rest.takeWhile Word.isValue
  match switch.arity with
  | .none => .ok ([⟨switch, []⟩], rest)
  | .one =>
      match values with
      | value :: _ => .ok ([⟨switch, [value.text]⟩], rest.drop 1)
      | [] => .error (.badSwitch switch .needsValue)
  | .many =>
      if values.isEmpty then .error (.badSwitch switch .needsValues)
      else .ok ([⟨switch, values.map Word.text⟩], rest.drop values.length)

/-- The uses of short switches written together.  The first that takes a value takes all that is left. -/
def together (switch : Switch) : Text → List Word → Except UsageError (List Use × List Word)
  | [], rest => separate switch rest
  | letter :: more, rest =>
      if switch.arity ≠ .none then .ok ([⟨switch, [letter :: more]⟩], rest)
      else
        match Switch.ofLetter? letter with
        | some next => do
            let (uses, rest) ← together next more rest
            pure (⟨switch, []⟩ :: uses, rest)
        | none => .error (.badSwitch switch (.needlessValue (letter :: more)))

/-- The uses of a switch with an attached value. -/
def attached (switch : Switch) (short : Bool) (value : Text) (rest : List Word) :
    Except UsageError (List Use × List Word) :=
  if switch.arity ≠ .none then .ok ([⟨switch, [value]⟩], rest)
  else if short && !value.isEmpty then together switch value rest
  else .error (.badSwitch switch (.needlessValue value))

/-- The uses that a word gives, and the words after them. -/
def ofWord (switch : Switch) (short : Bool) (value : Option Text) (rest : List Word) :
    Except UsageError (List Use × List Word) :=
  match value with
  | none => separate switch rest
  | some value => attached switch short value rest

end Use

/-! ### Arguments -/

structure Arguments where
  config : Option Text
  projectRoot : Option Text
  files : Option (List Text)
  autocorrect : Bool
  listRules : Bool
  jsonOutput : Bool
  plainOutput : Bool
  verbose : Bool
deriving DecidableEq, Repr

/-- What arguments ask for. -/
inductive Wish where
  | run (arguments : Arguments)
  | help
  | version
deriving DecidableEq, Repr

namespace Arguments

/-- The arguments of a run without any. -/
def none : Arguments :=
  ⟨.none, .none, .none, false, false, false, false, false⟩

/-- The arguments after the use of a switch, unless it asks for something else. -/
def apply (arguments : Arguments) (use : Use) : Wish :=
  match use.switch with
  | .help => .help
  | .version => .version
  | .config => .run { arguments with config := use.values.head? }
  | .projectRoot => .run { arguments with projectRoot := use.values.head? }
  | .files => .run { arguments with files := some use.values }
  | .autocorrect => .run { arguments with autocorrect := true }
  | .listRules => .run { arguments with listRules := true }
  | .jsonOutput => .run { arguments with jsonOutput := true }
  | .plainOutput => .run { arguments with plainOutput := true }
  | .verbose => .run { arguments with verbose := true }

/-- The arguments after the uses of switches, unless one asks for something else. -/
def applyAll (arguments : Arguments) : List Use → Wish
  | [] => .run arguments
  | use :: rest =>
      match arguments.apply use with
      | .run next => next.applyAll rest
      | other => other

/-- Reads words, of which some before them were not understood. -/
def readWords : Nat → Arguments → List Text → List Word → Except UsageError Wish
  | 0, arguments, extras, _ => if extras.isEmpty then .ok (.run arguments) else .error (.unrecognized extras)
  | _, arguments, extras, [] => if extras.isEmpty then .ok (.run arguments) else .error (.unrecognized extras)
  | fuel + 1, arguments, extras, word :: rest =>
      match word.reading with
      | .switch switch short value => do
          let (uses, rest) ← Use.ofWord switch short value rest
          match arguments.applyAll uses with
          | .run next => readWords fuel next extras rest
          | other => pure other
      | _ => readWords fuel arguments (extras ++ [word.text]) rest

/-- What a list of arguments asks for. -/
def read (given : List Text) : Except UsageError Wish := do
  let words ← Word.readAll given
  readWords words.length none [] words

def textValue (text : Option Text) : Value :=
  (text.map Value.text).getD .null

def toRecord (arguments : Arguments) : Entries := [
  (.text "config", textValue arguments.config),
  (.text "project_root", textValue arguments.projectRoot),
  (.text "files", (arguments.files.map fun names => Value.list (names.map Value.text)).getD .null),
  (.text "autocorrect", .bool arguments.autocorrect),
  (.text "list_rules", .bool arguments.listRules),
  (.text "json_output", .bool arguments.jsonOutput),
  (.text "plain_output", .bool arguments.plainOutput),
  (.text "verbose", .bool arguments.verbose)]

end Arguments

end AccessorLint
