import AccessorLint.Files.Disk
import AccessorLint.Journal.Notice
import AccessorLint.Settings.Basic
import AccessorLint.Settings.Reader
import AccessorLint.Text.Lines
import AccessorLint.Text.Strict
set_option autoImplicit false

/-!
Loading settings: from a file of a project to the settings of a run.
-/

namespace AccessorLint

/-- Why settings cannot be loaded. -/
inductive LoadError where
  | build (error : BuildError)
  /-- The file is no UTF-8. -/
  | decoding (error : Text.DecodingError)
  /-- Reading the text fails, though it is well-formed. -/
  | reading (reason : Text)
  /-- The names on the top level have no order; these are the kinds of two that cannot be compared. -/
  | unordered (later earlier : Text)
deriving Repr

def LoadError.message : LoadError → Text
  | build (.settings error) => error.message
  | build (.whole error) => error.message
  | decoding error => error.message
  | reading reason => reason
  | unordered later earlier =>
      "'<' not supported between instances of '" ++ later ++ "' and '" ++ earlier ++ "'"

/-- Settings, and the merged value that gave them. -/
structure Loaded where
  settings : Settings
  raw : Entries
deriving Repr

namespace Settings

/-- Where a project keeps its settings, by precedence. -/
def usualPaths : List Text := [".rblint/config.yaml", ".rblint.yaml", ".rblint.yml"]

/-- The file with the settings of a project, if it has one. -/
def find? (disk : Disk) (projectRoot : Path) : Option Path :=
  (usualPaths.map fun path => projectRoot.join (.ofText path)).find? fun path => disk.isFile path

/-! ### Reading a file -/

/-- A text with one newline for each end of a line. -/
def withNewlines : Text → Text
  | [] => []
  | .glyph '\r' :: .glyph '\n' :: rest => .glyph '\n' :: withNewlines rest
  | symbol :: rest => (if symbol = .glyph '\r' then .glyph '\n' else symbol) :: withNewlines rest

/-- The entries that a value gives.  Null gives none. -/
def entriesOf (path : Text) : Value → Except SettingsError Entries
  | .scalar .null => .ok []
  | .mapping entries => .ok entries
  | other => .error (.notAMapping path other.kindName)

/-- What is told of a file that cannot be read.  Only a text that is not well-formed is told as such. -/
def ReadError.toLoadError (path : Text) : ReadError → LoadError
  | .malformed reason => .build (.settings (.unreadable path reason))
  | .failed reason => .reading reason

def readValue (read : Reader) (path : Text) (bytes : Text.Bytes) : Except LoadError Value := do
  let text ← (Text.decodeStrict bytes).mapError .decoding
  (read (withNewlines text)).mapError (ReadError.toLoadError path)

/-! ### The order of names -/

/-- Whether two keys can be compared: both are numbers, or both are texts. -/
def comparable : Scalar → Scalar → Bool
  | .text _, .text _ => true
  | .text _, _ | _, .text _ => false
  | .null, _ | _, .null => false
  | _, _ => true

/-- The first neighbours that cannot be compared, the later one first. -/
def incomparable? : List Scalar → Option (Scalar × Scalar)
  | earlier :: later :: rest =>
      if comparable earlier later then incomparable? (later :: rest) else some (later, earlier)
  | _ => none

/-- Fails if the names have no order. -/
def checkOrder (entries : Entries) : Except LoadError Unit :=
  match incomparable? (entries.map Prod.fst) with
  | some (later, earlier) =>
      .error (.unordered (Value.scalar later).kindName (Value.scalar earlier).kindName)
  | none => .ok ()

/-! ### Loading -/

/-- The settings that a user's value gives. -/
def ofValue (path : Text) (value : Value) : Except LoadError Loaded := do
  let entries ← (entriesOf path value).mapError fun error => .build (.settings error)
  let raw := defaults.merge entries
  checkOrder entries
  let settings ← (build raw).mapError .build
  pure ⟨settings, raw⟩

/-- The settings that hold where there is no file. -/
def ofDefaults : Except LoadError Loaded := do
  let settings ← (build defaults).mapError .build
  pure ⟨settings, defaults⟩

/-- The settings of a file.  A file that does not exist changes nothing, with a warning. -/
def load (read : Reader) (disk : Disk) : Option Path → Except LoadError Loaded × List Notice
  | none => (ofDefaults, [.debug "No config file given, using defaults"])
  | some path =>
      match disk.find? path with
      | none => (ofDefaults, [.warning ("Config file does not exist, using defaults: " ++ path.text)])
      | some .directory =>
          (.error (.build (.settings (.unreadable path.text (FileError.isADirectory.message path.text)))), [])
      | some (.file bytes _) => (readValue read path.text bytes >>= ofValue path.text, [])

end Settings

end AccessorLint
