import PatternEngine.Automaton.Basic
import PatternEngine.Automaton.Build
import PatternEngine.Automaton.OnePass
import PatternEngine.Automaton.Position
import PatternEngine.Automaton.Search
import PatternEngine.Automaton.Sequences
import PatternEngine.Automaton.Weight
import PatternEngine.Automaton.Words
import PatternEngine.Buffer
import PatternEngine.Bytes
import PatternEngine.Decimal.Double
import PatternEngine.Decimal.Shortest
import PatternEngine.Diagnostic
import PatternEngine.Diagnostic.Document
import PatternEngine.Encoder
import PatternEngine.Engine.Basic
import PatternEngine.Engine.Compile
import PatternEngine.Engine.Creation
import PatternEngine.Engine.FileMatch
import PatternEngine.Engine.Governor
import PatternEngine.Engine.Load
import PatternEngine.Engine.Match
import PatternEngine.Engine.Report
import PatternEngine.Engine.Trace
import PatternEngine.Environment
import PatternEngine.Expression
import PatternEngine.Expression.Atom
import PatternEngine.Expression.Bracket
import PatternEngine.Expression.Charset
import PatternEngine.Expression.Mode
import PatternEngine.Expression.Term
import PatternEngine.Fault
import PatternEngine.FileSystem
import PatternEngine.ForeignCall
import PatternEngine.HandleTable
import PatternEngine.Home
import PatternEngine.Importer
import PatternEngine.Json
import PatternEngine.Json.Reader
import PatternEngine.Matcher
import PatternEngine.Primitive
import PatternEngine.Proofs.Automaton.Ranges
import PatternEngine.Proofs.Diagnostic.RoundTrip
import PatternEngine.Proofs.Engine.Action
import PatternEngine.Proofs.Engine.Atomic
import PatternEngine.Proofs.Engine.Boundary
import PatternEngine.Proofs.Engine.Calls
import PatternEngine.Proofs.Engine.Closed
import PatternEngine.Proofs.Engine.Delivery
import PatternEngine.Proofs.Engine.Documents
import PatternEngine.Proofs.Engine.Encoders
import PatternEngine.Proofs.Engine.Faults
import PatternEngine.Proofs.Engine.FileMatches
import PatternEngine.Proofs.Engine.Filtering
import PatternEngine.Proofs.Engine.Frames
import PatternEngine.Proofs.Engine.Governing
import PatternEngine.Proofs.Engine.HandleHistories
import PatternEngine.Proofs.Engine.Handles
import PatternEngine.Proofs.Engine.Importing
import PatternEngine.Proofs.Engine.Joined
import PatternEngine.Proofs.Engine.Lifetimes
import PatternEngine.Proofs.Engine.Looking
import PatternEngine.Proofs.Engine.Naming
import PatternEngine.Proofs.Engine.Packages
import PatternEngine.Proofs.Engine.Patterns
import PatternEngine.Proofs.Engine.Rebinding
import PatternEngine.Proofs.Engine.Reports
import PatternEngine.Proofs.Engine.Results
import PatternEngine.Proofs.Engine.Spans
import PatternEngine.Proofs.Engine.Splicing
import PatternEngine.Proofs.Engine.Standard
import PatternEngine.Proofs.Engine.Stories
import PatternEngine.Proofs.Engine.Subjects
import PatternEngine.Proofs.Engine.Traces
import PatternEngine.Proofs.Engine.Watched
import PatternEngine.Proofs.Expression.Brackets
import PatternEngine.Proofs.Expression.Extended
import PatternEngine.Proofs.Expression.Moves
import PatternEngine.Proofs.Expression.Progress
import PatternEngine.Proofs.Expression.Tidy
import PatternEngine.Proofs.Expression.Wrapped
import PatternEngine.Proofs.Foreign.AllOrNone
import PatternEngine.Proofs.Foreign.Invocations
import PatternEngine.Proofs.Foreign.Outcomes
import PatternEngine.Proofs.Foreign.Steps
import PatternEngine.Proofs.Importer.Binding
import PatternEngine.Proofs.Importer.Closed
import PatternEngine.Proofs.Importer.Exports
import PatternEngine.Proofs.Importer.Files
import PatternEngine.Proofs.Importer.Good
import PatternEngine.Proofs.Importer.Growth
import PatternEngine.Proofs.Importer.ImportLines
import PatternEngine.Proofs.Importer.Joined
import PatternEngine.Proofs.Importer.Lines
import PatternEngine.Proofs.Importer.Naming
import PatternEngine.Proofs.Importer.Nesting
import PatternEngine.Proofs.Importer.Paths
import PatternEngine.Proofs.Importer.Processed
import PatternEngine.Proofs.Importer.Reading
import PatternEngine.Proofs.Importer.Rebinding
import PatternEngine.Proofs.Importer.Reports
import PatternEngine.Proofs.Importer.Resolution
import PatternEngine.Proofs.Importer.Said
import PatternEngine.Proofs.Importer.Updates
import PatternEngine.Proofs.Json.Documents
import PatternEngine.Proofs.Json.Ordered
import PatternEngine.Proofs.Json.Records
import PatternEngine.Proofs.Json.Strings
import PatternEngine.Proofs.Json.Written
import PatternEngine.Proofs.Source.ByTokens
import PatternEngine.Proofs.Source.Substitution
import PatternEngine.Proofs.Text.Encoded
import PatternEngine.Proofs.Text.Pieces
import PatternEngine.Proofs.Text.Utf8
import PatternEngine.Proofs.Value.Context
import PatternEngine.Proofs.Value.Documented
import PatternEngine.Proofs.Value.Encoding
import PatternEngine.Proofs.Value.Layout
import PatternEngine.Proofs.Value.RoundTrip
import PatternEngine.Proofs.Value.Tables
import PatternEngine.Reply
import PatternEngine.RuntimeModule
import PatternEngine.Source.Line
import PatternEngine.Source.Reference
import PatternEngine.Source.Scan
import PatternEngine.StandIn
import PatternEngine.StandardLibrary
import PatternEngine.StandardModule
import PatternEngine.Text.Quoted
import PatternEngine.Text.Utf8
import PatternEngine.Tracing
import PatternEngine.Unicode.Category
import PatternEngine.Unicode.Folding
import PatternEngine.Unicode.Packed
import PatternEngine.Unicode.Property
import PatternEngine.Unicode.Script
import PatternEngine.Value
import PatternEngine.Value.Document
import PatternEngine.Value.Heap
import PatternEngine.World
