import AccessorLint.Files.Wildcard
import AccessorLint.Files.Path
set_option autoImplicit false

/-!
Excluded files.  A pattern excludes the paths it matches; a pattern without wildcards also excludes everything inside
the directory it names.
-/

namespace AccessorLint

def withoutTrailingSlashes (text : Text) : Text :=
  (text.reverse.dropWhile (· == Path.slash)).reverse

def excludes (path pattern : Text) : Bool :=
  let directory := withoutTrailingSlashes pattern
  Wildcard.fits pattern path ||
    (!Wildcard.isWild directory && path.startsWith (directory ++ "/"))

def isExcluded (path : Text) (patterns : List Text) : Bool :=
  patterns.any fun pattern => excludes path pattern

end AccessorLint
