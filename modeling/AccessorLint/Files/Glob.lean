import AccessorLint.Files.Disk
import AccessorLint.Files.Wildcard
set_option autoImplicit false

/-!
Finding files by a pattern for each name on the way: `**` stands for any number of directories, `..` goes up, and
other names are matched by wildcards.  A pattern that ends in a slash finds directories only.
-/

namespace AccessorLint.Glob

/-- Why a pattern cannot be used. -/
inductive GlobError where
  /-- A name holds `**` and something else. -/
  | mixedStars
  /-- The pattern has no names. -/
  | noNames
  /-- The pattern has no names and ends in a slash. -/
  | bareSlash
deriving DecidableEq, Repr

def GlobError.message : GlobError → Text
  | mixedStars => "Invalid pattern: '**' can only be an entire path component"
  | noNames => "tuple index out of range"
  | bareSlash => "'_TerminatingSelector' object has no attribute 'select_from'"

/-- A path that has been found, and the place that it leads to. -/
structure Found where
  path : Path
  place : List Text
deriving DecidableEq, Repr

/-- One name further. -/
def Found.child (found : Found) (name : Text) : Found :=
  ⟨{ found.path with parts := found.path.parts ++ [name] }, found.place ++ [name]⟩

/-- One directory up. -/
def Found.parent (found : Found) : Found :=
  ⟨{ found.path with parts := found.path.parts ++ [Text.ofString ".."] }, found.place.dropLast⟩

/-- The directory itself and every directory inside it. -/
def Found.directories (disk : Disk) (found : Found) : List Found :=
  found :: disk.nodes.filterMap fun (place, node) =>
    let inside := place.drop found.place.length
    if node = .directory && found.place.isPrefixOf place && !inside.isEmpty then
      some ⟨{ found.path with parts := found.path.parts ++ inside }, place⟩
    else none

/-- What the names of a pattern lead to.  A name that others follow has to lead to a directory; an empty name ends the
pattern. -/
def select (disk : Disk) : List Text → Found → List Found
  | [], found => [found]
  | name :: rest, found =>
      let stands (next : Found) : Bool :=
        if rest.isEmpty then (disk.node? next.place).isSome else disk.isDirectoryAt next.place
      if name.isEmpty then [found]
      else if name = "**" then (found.directories disk).flatMap (select disk rest)
      else if name = ".." then select disk rest found.parent
      else if Wildcard.isWild name then
        let matching := (disk.names found.place).filter fun entry => Wildcard.fits name entry
        ((matching.map found.child).filter stands).flatMap (select disk rest)
      else if stands (found.child name) then select disk rest (found.child name)
      else []

/-- The names of a pattern.  A slash at the end gives an empty name. -/
def patternNames (pattern : Text) : List Text :=
  Path.partsOf pattern ++ (if pattern.getLast? = some Path.slash then [[]] else [])

/-- The names of a pattern, if it can be used. -/
def checkedNames (pattern : Text) : Except GlobError (List Text) :=
  let names := patternNames pattern
  if names.isEmpty then .error .noNames
  else if names = [[]] then .error .bareSlash
  else if names.any fun name => name ≠ "**" && Text.occursIn "**" name then .error .mixedStars
  else .ok names

/-- The paths inside a directory that a pattern finds. -/
def find (disk : Disk) (directory : Path) (pattern : Text) : Except GlobError (List Path) := do
  let names ← checkedNames pattern
  match disk.place directory with
  | .ok place =>
      if disk.isDirectoryAt place then pure ((select disk names ⟨directory, place⟩).map Found.path) else pure []
  | .error _ => pure []

end AccessorLint.Glob
