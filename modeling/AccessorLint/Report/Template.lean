import AccessorLint.Value.Shown
set_option autoImplicit false

/-!
Message templates: a name between braces stands for a text, and a doubled brace for a brace.
-/

namespace AccessorLint.Template

/-- Why a template cannot be filled. -/
inductive TemplateError where
  | unknownName (name : Text)
  /-- A closing brace stands alone. -/
  | loneClose
  /-- An opening brace ends the template. -/
  | loneOpen
  | unclosedName
deriving DecidableEq, Repr

def TemplateError.message : TemplateError → Text
  | unknownName name => name.quoted
  | loneClose => "Single '\x7d' encountered in format string"
  | loneOpen => "Single '\x7b' encountered in format string"
  | unclosedName => "expected '\x7d' before end of string"

/-- The texts that names stand for. -/
abbrev Bindings := List (Text × Text)

/-- Fills a template.  A name is being read if there is one, and its symbols are kept last first. -/
def fillFrom (bindings : Bindings) : Option Text → Text → Except TemplateError Text
  | none, [] => .ok []
  | some [], [] => .error .loneOpen
  | some _, [] => .error .unclosedName
  | none, symbol :: rest =>
      if symbol = .glyph '\x7b' then fillFrom bindings (some []) rest
      else if symbol = .glyph '\x7d' then
        match rest with
        | .glyph '\x7d' :: after => do
            let filled ← fillFrom bindings none after
            pure (symbol :: filled)
        | _ => .error .loneClose
      else do
        let filled ← fillFrom bindings none rest
        pure (symbol :: filled)
  | some name, symbol :: rest =>
      if symbol = .glyph '\x7b' && name.isEmpty then do
        let filled ← fillFrom bindings none rest
        pure (symbol :: filled)
      else if symbol = .glyph '\x7d' then
        match bindings.lookup name.reverse with
        | some text => do
            let filled ← fillFrom bindings none rest
            pure (text ++ filled)
        | none => .error (.unknownName name.reverse)
      else fillFrom bindings (some (symbol :: name)) rest

def fill (template : Text) (bindings : Bindings) : Except TemplateError Text :=
  fillFrom bindings none template

end AccessorLint.Template
