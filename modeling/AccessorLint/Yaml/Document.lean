import AccessorLint.Settings.Reader
import AccessorLint.Yaml.Scalar
import AccessorLint.Yaml.Token
set_option autoImplicit false

/-!
Documents of YAML: the value that the tokens of a text build.

A text holds at most one document.  A key has to be a scalar, and of two equal keys the last one counts.

This is a part of YAML 1.1: block and flow mappings and sequences, plain, single and double quoted scalars, comments and
the marks of a document.  Directives, anchors, aliases, tags, block scalars and merge keys are refused, and dates are
read as texts.
-/

namespace AccessorLint.Yaml

/-- A value that has been read, and the tokens after it. -/
abbrev Parsed := Option (Value × List Token)

/-- Whether a key, a value or the end of the block comes next, so that nothing stands before it. -/
def endsBlockNode : List Token → Bool
  | .key :: _ | .value :: _ | .blockEnd :: _ => true
  | _ => false

/-- Whether an entry or the end of the block comes next. -/
def endsBlockEntry : List Token → Bool
  | .blockEntry :: _ | .blockEnd :: _ => true
  | _ => false

/-- Whether the part of a flow collection ends before the next token. -/
def endsFlowNode (closing : Token) : List Token → Bool
  | token :: _ => token = .value || token = .flowEntry || token = closing
  | [] => false

/-- The entries with a key, which has to be a scalar, bound to a value. -/
def bindKey (entries : Entries) (key value : Value) : Option Entries :=
  match key with
  | .scalar name => some (Entries.set name value entries)
  | _ => none

/-- The tokens after the comma that has to stand between two parts of a flow collection. -/
def afterComma (closing : Token) (first : Bool) : List Token → Option (List Token)
  | .flowEntry :: rest => if first then some (.flowEntry :: rest) else some rest
  | token :: rest => if first || token = closing then some (token :: rest) else none
  | [] => none

mutual

/-- Reads a node.  A sequence without indentation of its own is read only where the value of a mapping is due. -/
def node (block indentless : Bool) : Nat → List Token → Parsed
  | 0, _ => none
  | fuel + 1, tokens =>
      match tokens with
      | .scalar text plain :: rest =>
          if plain then (plain? text).map fun scalar => (.scalar scalar, rest) else some (.text text, rest)
      | .flowSequenceStart :: rest => flowItems fuel [] rest
      | .flowMappingStart :: rest => flowEntries fuel [] rest
      | .blockSequenceStart :: rest => if block then blockItems true fuel [] rest else none
      | .blockMappingStart :: rest => if block then blockEntries fuel [] rest else none
      | .blockEntry :: _ => if block && indentless then blockItems false fuel [] tokens else none
      | _ => none

/-- Reads the items of a block sequence.  One with indentation of its own ends with the end of its block. -/
def blockItems (indented : Bool) : Nat → List Value → List Token → Parsed
  | 0, _, _ => none
  | fuel + 1, read, tokens =>
      match tokens with
      | .blockEntry :: rest =>
          if endsBlockEntry rest || (!indented && endsBlockNode rest) then
            blockItems indented fuel (read ++ [.null]) rest
          else do
            let (item, rest) ← node true false fuel rest
            blockItems indented fuel (read ++ [item]) rest
      | .blockEnd :: rest => some (.list read, if indented then rest else tokens)
      | _ => if indented then none else some (.list read, tokens)

/-- Reads the entries of a block mapping. -/
def blockEntries : Nat → Entries → List Token → Parsed
  | 0, _, _ => none
  | fuel + 1, read, tokens =>
      match tokens with
      | .key :: rest => do
          let (name, rest) ← if endsBlockNode rest then some (.null, rest) else node true true fuel rest
          match rest with
          | .value :: rest =>
              let (value, rest) ← if endsBlockNode rest then some (.null, rest) else node true true fuel rest
              let entries ← bindKey read name value
              blockEntries fuel entries rest
          | _ =>
              let entries ← bindKey read name .null
              blockEntries fuel entries rest
      | .blockEnd :: rest => some (.mapping read, rest)
      | _ => none

/-- Reads the key and the value of an entry of a flow collection, whose key mark has been taken. -/
def flowPair (closing : Token) : Nat → List Token → Option (Value × Value × List Token)
  | 0, _ => none
  | fuel + 1, tokens => do
      let (name, rest) ← if endsFlowNode closing tokens then some (.null, tokens) else node false false fuel tokens
      match rest with
      | .value :: rest =>
          let empty := rest.head?.any fun token => token = .flowEntry || token = closing
          let (value, rest) ← if empty then some (.null, rest) else node false false fuel rest
          some (name, value, rest)
      | _ => some (name, .null, rest)

/-- Reads the items of a flow sequence.  A pair in it is a mapping of one entry. -/
def flowItems : Nat → List Value → List Token → Parsed
  | 0, _, _ => none
  | fuel + 1, read, tokens => do
      let tokens ← afterComma .flowSequenceEnd read.isEmpty tokens
      match tokens with
      | .flowSequenceEnd :: rest => some (.list read, rest)
      | .key :: rest =>
          let (name, value, rest) ← flowPair .flowSequenceEnd fuel rest
          let entry ← bindKey [] name value
          flowItems fuel (read ++ [.mapping entry]) rest
      | _ =>
          let (item, rest) ← node false false fuel tokens
          flowItems fuel (read ++ [item]) rest

/-- Reads the entries of a flow mapping. -/
def flowEntries : Nat → Entries → List Token → Parsed
  | 0, _, _ => none
  | fuel + 1, read, tokens => do
      let tokens ← afterComma .flowMappingEnd read.isEmpty tokens
      match tokens with
      | .flowMappingEnd :: rest => some (.mapping read, rest)
      | .key :: rest =>
          let (name, value, rest) ← flowPair .flowMappingEnd fuel rest
          let entries ← bindKey read name value
          flowEntries fuel entries rest
      | _ =>
          let (name, rest) ← node false false fuel tokens
          let entries ← bindKey read name .null
          flowEntries fuel entries rest

end

/-- Whether a document has no node. -/
def endsDocument : List Token → Bool
  | [] => true
  | .documentStart :: _ | .documentEnd :: _ => true
  | _ => false

/-- The value of a text: null if it holds no document, nothing if it cannot be read. -/
def read? (text : Text) : Option Value := do
  let tokens ← tokens? text
  let content := if tokens.head? = some .documentStart then tokens.drop 1 else tokens
  if tokens.isEmpty then some .null
  else
    let fuel := 4 * tokens.length + 4
    let (value, rest) ←
      if endsDocument content && tokens.head? = some .documentStart then some (.null, content)
      else node true false fuel content
    if rest.all (· = .documentEnd) then some value else none

/-- What is said of a text that cannot be read. -/
def malformedMessage : Text := "not well-formed YAML"

/-- The reader of settings files that comes with the program. -/
def reader : Settings.Reader := fun text =>
  match read? text with
  | some value => .ok value
  | none => .error (.malformed malformedMessage)

end AccessorLint.Yaml
