import JsonPath.Binary64
import JsonPath.Binary64.Arithmetic
import JsonPath.Binary64.Decimal
import JsonPath.Binary64.Shortest
import JsonPath.Command
import JsonPath.Command.Manual
import JsonPath.Document.Decoding
import JsonPath.Document.Escapes
import JsonPath.Document.Indented
import JsonPath.Document.Node
import JsonPath.Document.Reader
import JsonPath.Document.Rescaled
import JsonPath.Document.Span
import JsonPath.Environment
import JsonPath.Environment.Standard
import JsonPath.Error
import JsonPath.Filter.Operator
import JsonPath.Filter.Postfix
import JsonPath.Filter.Predicate
import JsonPath.Filter.Reference
import JsonPath.Filter.Token
import JsonPath.Main
import JsonPath.Offsets
import JsonPath.Operand
import JsonPath.Operand.Conversion
import JsonPath.Operand.Order
import JsonPath.Path.Printer
import JsonPath.Path.Reader
import JsonPath.Path.Segment
import JsonPath.Pattern
import JsonPath.Pattern.Basic
import JsonPath.Pattern.Bracket
import JsonPath.Pattern.Escape
import JsonPath.Pattern.Flags
import JsonPath.Pattern.Matching
import JsonPath.Pattern.Properties
import JsonPath.Pattern.Reader
import JsonPath.Proofs.Binary64.Decimals
import JsonPath.Proofs.Binary64.Nearest
import JsonPath.Proofs.Binary64.Rounding
import JsonPath.Proofs.Document.Grammar
import JsonPath.Proofs.Document.Layout
import JsonPath.Proofs.Document.Reading
import JsonPath.Proofs.Document.Rescanning
import JsonPath.Proofs.Document.Scanning
import JsonPath.Proofs.Document.Spelling
import JsonPath.Proofs.Document.Surrogates
import JsonPath.Proofs.Document.WellFormed
import JsonPath.Proofs.Filter.Arranging
import JsonPath.Proofs.Filter.Balance
import JsonPath.Proofs.Filter.Evaluation
import JsonPath.Proofs.Filter.Expression
import JsonPath.Proofs.Filter.Failing
import JsonPath.Proofs.Filter.Lookahead
import JsonPath.Proofs.Filter.Nesting
import JsonPath.Proofs.Filter.Precedence
import JsonPath.Proofs.Filter.References
import JsonPath.Proofs.Filter.Tiling
import JsonPath.Proofs.Indexed.Cursor
import JsonPath.Proofs.Indexed.Document
import JsonPath.Proofs.Indexed.Operand
import JsonPath.Proofs.Indexed.Path
import JsonPath.Proofs.Indexed.Query
import JsonPath.Proofs.Indexed.Text
import JsonPath.Proofs.Indexed.Token
import JsonPath.Proofs.Operand.Conversions
import JsonPath.Proofs.Operand.DoubleTexts
import JsonPath.Proofs.Operand.Doubles
import JsonPath.Proofs.Operand.Mirroring
import JsonPath.Proofs.Operand.Naturals
import JsonPath.Proofs.Operand.Numerals
import JsonPath.Proofs.Operand.Padding
import JsonPath.Proofs.Operand.Recognition
import JsonPath.Proofs.Operand.Stripping
import JsonPath.Proofs.Operand.Transitivity
import JsonPath.Proofs.Path.Calls
import JsonPath.Proofs.Path.Concatenation
import JsonPath.Proofs.Path.Endings
import JsonPath.Proofs.Path.Faults
import JsonPath.Proofs.Path.Joining
import JsonPath.Proofs.Path.Positions
import JsonPath.Proofs.Path.Printing
import JsonPath.Proofs.Path.Quoting
import JsonPath.Proofs.Path.Spacing
import JsonPath.Proofs.Path.WellFormed
import JsonPath.Proofs.Query.Chaining
import JsonPath.Proofs.Query.Composition
import JsonPath.Proofs.Query.Containment
import JsonPath.Proofs.Query.Definite
import JsonPath.Proofs.Query.DocumentOrder
import JsonPath.Proofs.Query.Extremes
import JsonPath.Proofs.Query.Faultless
import JsonPath.Proofs.Query.Naming
import JsonPath.Proofs.Query.Positions
import JsonPath.Proofs.Query.Relocation
import JsonPath.Proofs.Query.Results
import JsonPath.Proofs.Query.Selection
import JsonPath.Proofs.Query.Slices
import JsonPath.Proofs.Query.Staging
import JsonPath.Proofs.Query.Uniqueness
import JsonPath.Proofs.Query.Unwrapping
import JsonPath.Proofs.Text.Numerals
import JsonPath.Proofs.Text.Stopping
import JsonPath.Proofs.Text.Trimming
import JsonPath.Query
import JsonPath.Query.Aggregate
import JsonPath.Query.Walk
import JsonPath.Text
import JsonPath.Text.CharRanges
import JsonPath.Text.Hidden
import JsonPath.Text.Numeral
import JsonPath.Text.Quoted
import JsonPath.Text.Shown
