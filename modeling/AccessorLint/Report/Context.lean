import AccessorLint.Text.Strict
import AccessorLint.Text.Lines
set_option autoImplicit false

/-!
Contexts: the source text around a violation, and the digest by which it is known again.
-/

namespace AccessorLint.Context

/-- The lines from one number to another, counted from one.  A negative last number counts from the end. -/
def between (lines : List Text) (first last : Int) : List Text :=
  let stop : Int := if last < 0 then max 0 (lines.length + last) else last
  (lines.take stop.toNat).drop (max first 1 - 1).toNat

/-- The context that lines give, each without the blanks at its end. -/
def ofLines (lines : List Text) (first last : Int) : Text :=
  Text.unlines ((between lines first last).map Text.trimRight)

/-- A context without newlines and without the blanks at the ends of its lines. -/
def squeezed (context : Text) : Text :=
  (Text.lines context).flatMap Text.trim

/-- The digest by which a context is known. -/
def hash (context : Text) : Except Text.EncodingError Text :=
  Text.digest (squeezed context)

end AccessorLint.Context
