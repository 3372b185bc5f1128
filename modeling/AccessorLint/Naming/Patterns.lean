import AccessorLint.Pattern.Matching
import AccessorLint.Pattern.Reader
import AccessorLint.Value.Shown
import AccessorLint.Naming.Outcome
set_option autoImplicit false

/-!
Which methods are accessors.

A getter that sends an HTTP request is left alone, because `get` is then the name of what it does.  Patterns tell
such methods by their source text, and API clients by their paths.  Settings may replace each set of patterns.
-/

namespace AccessorLint.Pattern

namespace Expr

/-- The expression that only a text matches. -/
def literal : Text → Expr
  | [] => .empty
  | symbol :: rest => .sequence (.one (.set [.single symbol] true)) (literal rest)

/-- The expression of any number of blanks. -/
def blanks : Expr :=
  .repetition (.one (.set [.kind .blank true] true)) 0 none .greedy

end Expr

/-- The regular expression that only a text matches. -/
def Regex.literal (text : Text) : Regex :=
  ⟨.literal text, false⟩

/-- The regular expression that a text matches, whatever the case of its letters. -/
def Regex.anyCase (text : Text) : Regex :=
  ⟨.literal text, true⟩

end AccessorLint.Pattern

namespace AccessorLint.Naming

open Pattern (Regex Expr)

structure PatternSets where
  /-- Source texts that send a request. -/
  httpGet : List Regex
  /-- Source texts that send a request if they stand in an API client. -/
  httpGetWrapper : List Regex
  /-- Paths of API clients. -/
  apiFile : List Regex
deriving DecidableEq, Repr

/-- Whether one of the patterns occurs in a text. -/
def matchesAny (patterns : List Regex) (text : Text) : Bool :=
  patterns.any fun pattern => pattern.occursIn text

namespace PatternSets

/-- The patterns that hold where settings give no others. -/
def default : PatternSets where
  httpGet := [
    .literal ".get(",
    .literal "connection.get",
    .literal "HTTP.get",
    .literal "RestClient.get",
    .literal "Faraday.get",
    .literal "Net::HTTP.get",
    ⟨.sequence (.literal ".get") (.sequence .blanks (.literal "(")), false⟩,
    .literal "Net::HTTP::Get.new",
    .literal "Net::HTTP::Get",
    .literal "http.request",
    .literal "https.request",
    .literal "Net::HTTP.new"]
  httpGetWrapper := [
    ⟨.sequence (.anchor (.wordEdge true)) (.sequence (.literal "get") (.sequence .blanks (.literal "("))), false⟩]
  apiFile := [
    .anyCase "client",
    .anyCase "api_client",
    .anyCase "controller",
    .literal "/api/",
    .literal "/clients/"]

def sendsGetRequest (patterns : PatternSets) (sourceText : Text) : Bool :=
  matchesAny patterns.httpGet sourceText

/-- Whether a source text calls a method `get`. -/
def callsGet (patterns : PatternSets) (sourceText : Text) : Bool :=
  matchesAny patterns.httpGetWrapper sourceText

/-- A path with slashes for backslashes. -/
def slashed (path : Text) : Text :=
  path.map fun symbol => if symbol = .glyph '\\' then .glyph '/' else symbol

/-- Whether a path is that of an API client. -/
def isApiFile (patterns : PatternSets) (path : Text) : Bool :=
  matchesAny patterns.apiFile (slashed path)

end PatternSets

/-! ### Classification -/

/-- What the classification of a method looks at. -/
structure Method where
  name : Text
  argumentCount : Int
  sourceText : Text
  filePath : Text
deriving DecidableEq, Repr

/-- What is wrong with the name of a method. -/
def classify (patterns : PatternSets) (method : Method) : Outcome :=
  if method.name.startsWith getStart then
    if method.argumentCount = 0 then .skip
    else if patterns.sendsGetRequest method.sourceText then .skip
    else if patterns.isApiFile method.filePath && patterns.callsGet method.sourceText then .skip
    else .getter
  else if method.name.startsWith setStart then
    if method.argumentCount = 0 then .skip
    else if patterns.isApiFile method.filePath then .apiSetter
    else .setter
  else .skip

/-! ### Patterns from settings -/

/-- Why a parameter gives no patterns. -/
inductive PatternsError where
  | notAList (parameter : Text)
  | notAText (parameter : Text) (entry : Value)
  /-- An entry is no regular expression. -/
  | badPattern (parameter pattern : Text) (error : Pattern.RegexError)
deriving Repr

def PatternsError.message : PatternsError → Text
  | notAList parameter => "Rule param '" ++ parameter ++ "' must be a list of regular expressions"
  | notAText parameter entry => "Rule param '" ++ parameter ++ "' contains a non-string entry: " ++ entry.shown
  | badPattern parameter pattern error =>
      "Rule param '" ++ parameter ++ "' has invalid pattern " ++ pattern.quoted ++ ": " ++ error.message

def readPattern (parameter : Text) : Value → Except PatternsError Regex
  | .scalar (.text pattern) => (Regex.read pattern).mapError (.badPattern parameter pattern)
  | entry => .error (.notAText parameter entry)

def readPatterns (parameter : Text) : Value → Except PatternsError (List Regex)
  | .list entries => entries.mapM (readPattern parameter)
  | _ => .error (.notAList parameter)

end AccessorLint.Naming
