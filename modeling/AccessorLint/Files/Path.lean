import AccessorLint.Text.Lines
set_option autoImplicit false

/-!
Paths: what they start from, and the names on the way.

Empty names and `.` mean nothing and are left out; `..` is kept, because what it means depends on the files.  A path
that starts with exactly two slashes starts from a root of its own.
-/

namespace AccessorLint

/-- What a path starts from. -/
inductive Root where
  /-- The working directory. -/
  | here
  /-- The root directory. -/
  | top
  /-- The root of two slashes. -/
  | double
deriving DecidableEq, Repr

structure Path where
  root : Root
  parts : List Text
deriving DecidableEq, Repr

namespace Path

/-- The symbol that divides names. -/
def slash : Symbol := .glyph '/'

/-- The names of a text between slashes. -/
def partsOf (text : Text) : List Text :=
  (text.split slash).filter fun part => !part.isEmpty && part != "."

def ofText (text : Text) : Path :=
  let root : Root :=
    match (text.takeWhile (· == slash)).length with
    | 0 => .here
    | 2 => .double
    | _ => .top
  ⟨root, partsOf text⟩

/-- The text of what a path starts from. -/
def rootText : Root → Text
  | .here => []
  | .top => "/"
  | .double => "//"

def text (path : Path) : Text :=
  let written := rootText path.root ++ Text.joined [slash] path.parts
  if written.isEmpty then "." else written

/-- Whether a path starts from a root. -/
def isAbsolute (path : Path) : Bool :=
  path.root != .here

/-- A path seen from another: an absolute path is itself, a relative one starts where the other ends. -/
def join (base path : Path) : Path :=
  if path.isAbsolute then path else ⟨base.root, base.parts ++ path.parts⟩

/-- The path inside a directory.  There is none if the path does not start with the directory. -/
def relativeTo? (path directory : Path) : Option Path :=
  if path.root = directory.root && directory.parts.isPrefixOf path.parts then
    some ⟨.here, path.parts.drop directory.parts.length⟩
  else none

def name (path : Path) : Text :=
  path.parts.getLastD []

/-- The names of an absolute path after each `..` has taken back the name before it. -/
def collapsed (parts : List Text) : List Text :=
  (parts.foldl (fun done (part : Text) => if part = ".." then done.drop 1 else part :: done) []).reverse

/-- An absolute path without `..`. -/
def normalized (path : Path) : Path :=
  { path with parts := collapsed path.parts }

end Path

end AccessorLint
