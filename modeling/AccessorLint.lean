import AccessorLint.Command.Arguments
import AccessorLint.Command.Run
import AccessorLint.Command.Session
import AccessorLint.Edit.Buffer
import AccessorLint.Files.Cache
import AccessorLint.Files.Disk
import AccessorLint.Files.Exclusion
import AccessorLint.Files.Glob
import AccessorLint.Files.Path
import AccessorLint.Files.Wildcard
import AccessorLint.Journal.Basic
import AccessorLint.Journal.LogName
import AccessorLint.Journal.Logger
import AccessorLint.Journal.Moment
import AccessorLint.Journal.Notice
import AccessorLint.Lint.Correction
import AccessorLint.Lint.Engine
import AccessorLint.Lint.Rule
import AccessorLint.Main
import AccessorLint.Naming.Outcome
import AccessorLint.Naming.Patterns
import AccessorLint.Naming.Rule
import AccessorLint.Pattern.Expr
import AccessorLint.Pattern.Matching
import AccessorLint.Pattern.Reader
import AccessorLint.Proofs.Blanking
import AccessorLint.Proofs.Blocks
import AccessorLint.Proofs.Definitions
import AccessorLint.Proofs.Edits
import AccessorLint.Proofs.Header
import AccessorLint.Proofs.Layout
import AccessorLint.Proofs.LineReading
import AccessorLint.Proofs.Lines
import AccessorLint.Proofs.Literals
import AccessorLint.Proofs.Locality
import AccessorLint.Proofs.Marks
import AccessorLint.Proofs.Minimality
import AccessorLint.Proofs.Occurrences
import AccessorLint.Proofs.Pass
import AccessorLint.Proofs.PlainCode
import AccessorLint.Proofs.RenamedDefinitions
import AccessorLint.Proofs.RenamedText
import AccessorLint.Proofs.Renaming
import AccessorLint.Proofs.Requests
import AccessorLint.Proofs.Segments
import AccessorLint.Proofs.Slot
import AccessorLint.Proofs.Structure
import AccessorLint.Proofs.Symbols
import AccessorLint.Report.Context
import AccessorLint.Report.Finding
import AccessorLint.Report.Reporter
import AccessorLint.Report.Template
import AccessorLint.Report.Violation
import AccessorLint.Settings.Basic
import AccessorLint.Settings.Loading
import AccessorLint.Settings.Rule
import AccessorLint.Source.Blanking
import AccessorLint.Source.Bracket
import AccessorLint.Source.Declaration
import AccessorLint.Source.Extent
import AccessorLint.Source.Header
import AccessorLint.Source.Heredoc
import AccessorLint.Source.Literal
import AccessorLint.Source.Position
import AccessorLint.Text.Blank
import AccessorLint.Text.Case
import AccessorLint.Text.Class
import AccessorLint.Text.Digest
import AccessorLint.Text.Folding
import AccessorLint.Text.Letter
import AccessorLint.Text.Lines
import AccessorLint.Text.Numeral
import AccessorLint.Text.Printable
import AccessorLint.Text.Quoted
import AccessorLint.Text.Strict
import AccessorLint.Text.Symbol
import AccessorLint.Text.Table
import AccessorLint.Text.Utf8
import AccessorLint.Value.Basic
import AccessorLint.Value.Double
import AccessorLint.Value.Json
import AccessorLint.Value.Shown
import AccessorLint.Value.Whole
import AccessorLint.Yaml.Document
import AccessorLint.Yaml.Scalar
import AccessorLint.Yaml.Token
import AccessorLint.Proofs.Placement
import AccessorLint.Proofs.Convergence
import AccessorLint.Proofs.Nesting
import AccessorLint.Proofs.Phrases
import AccessorLint.Proofs.Rendering
import AccessorLint.Proofs.Appended
import AccessorLint.Proofs.Findings
import AccessorLint.Proofs.StableReports
import AccessorLint.Proofs.StrayBytes
import AccessorLint.Proofs.Contents
import AccessorLint.Proofs.Padding
import AccessorLint.Proofs.PaddedLiterals
import AccessorLint.Proofs.PaddedText
import AccessorLint.Proofs.PaddedHeads
import AccessorLint.Proofs.PaddedCode
import AccessorLint.Proofs.LineEndings
import AccessorLint.Proofs.CacheEntries
import AccessorLint.Proofs.Accounting
import AccessorLint.Proofs.Composition
import AccessorLint.Proofs.Encoding
import AccessorLint.Proofs.Places
import AccessorLint.Proofs.Visits
import AccessorLint.Proofs.CorrectedFile
import AccessorLint.Proofs.Independence
import AccessorLint.Proofs.Refusals
import AccessorLint.Proofs.Reclassification
import AccessorLint.Proofs.ModifiedLiterals
import AccessorLint.Proofs.Shapes
import AccessorLint.Proofs.Calls
import AccessorLint.Proofs.Recency
import AccessorLint.Proofs.Relocation
import AccessorLint.Proofs.Contexts
import AccessorLint.Proofs.DefaultValues
import AccessorLint.Proofs.RenderedHeads
import AccessorLint.Proofs.Lists
import AccessorLint.Proofs.Entries
import AccessorLint.Proofs.Settling
import AccessorLint.Proofs.Merging
import AccessorLint.Proofs.Records
import AccessorLint.Proofs.RunReports
import AccessorLint.Proofs.Loading
import AccessorLint.Proofs.Brackets
import AccessorLint.Proofs.Positions
import AccessorLint.Proofs.Subtrees
import AccessorLint.Proofs.HeredocBodies
