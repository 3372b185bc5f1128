import AccessorLint.Value.Basic
set_option autoImplicit false

/-!
How the text of a settings file becomes a value.

The language of settings files is not defined here.  Whatever reads it is a parameter of loading: it gives a value, or
tells that the text is not well-formed, or fails in another way.
-/

namespace AccessorLint.Settings

/-- Why a text gives no value. -/
inductive ReadError where
  /-- It is not well-formed. -/
  | malformed (reason : Text)
  /-- It is well-formed, and still something in it makes reading fail. -/
  | failed (reason : Text)
deriving DecidableEq, Repr

/-- What reads the texts of settings files. -/
abbrev Reader := Text → Except ReadError Value

end AccessorLint.Settings
