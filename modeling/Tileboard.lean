import Tileboard.Text.Alphanumeric
import Tileboard.Text.Blank
import Tileboard.Text.Digit
import Tileboard.Text.LowerTable
import Tileboard.Text.Printable
import Tileboard.Number.Power
import Tileboard.Number.Binary64
import Tileboard.Number.Basic
import Tileboard.Number.Shortest
import Tileboard.Number.Notation
import Tileboard.Number.Numeral
import Tileboard.Number.Places
import Tileboard.Number.Statistics
import Tileboard.Text.Trim
import Tileboard.Text.LetterCase
import Tileboard.Text.Search
import Tileboard.Text.Quoted
import Tileboard.Value.Basic
import Tileboard.Value.Equality
import Tileboard.Value.Order
import Tileboard.Value.Rendering
import Tileboard.Fault
import Tileboard.Traced
import Tileboard.Json.Reader
import Tileboard.Json.Writer
import Tileboard.Pattern.Flaw
import Tileboard.Pattern.Syntax
import Tileboard.Text.Identifier
import Tileboard.Text.Letter
import Tileboard.Pattern.Token
import Tileboard.Pattern.Escape
import Tileboard.Pattern.Group
import Tileboard.Pattern.Reader
import Tileboard.Pattern.Case
import Tileboard.Pattern.Search
import Tileboard.Record
import Tileboard.Filter.Basic
import Tileboard.Filter.Matcher
import Tileboard.Value.Rounding
import Tileboard.Instant.Calendar
import Tileboard.Instant.Basic
import Tileboard.Instant.Reader
import Tileboard.Instant.Span
import Tileboard.Filter.Selection
import Tileboard.Filter.DrillDown
import Tileboard.Table.Basic
import Tileboard.Table.Alignment
import Tileboard.Number.Arithmetic
import Tileboard.Period
import Tileboard.Trend
import Tileboard.Measure.Outcome
import Tileboard.Measure.Count
import Tileboard.Measure.Duration
import Tileboard.Measure.Metric
import Tileboard.Measure.Grouping
import Tileboard.Source.Path
import Tileboard.Settings
import Tileboard.Threshold
import Tileboard.Tile.Basic
import Tileboard.Tile.Reader
import Tileboard.Tile.Plan
import Tileboard.Tile.Subtitle
import Tileboard.Tile.Pass
import Tileboard.Number.Scan
import Tileboard.Table.Numeric
import Tileboard.BarChart
import Tileboard.Board
import Tileboard.Number.Single
import Tileboard.Table.Cell
import Tileboard.Table.TextColumn
import Tileboard.Table.Header
import Tileboard.Source.Delimited
import Tileboard.Source.Workbook
import Tileboard.Source.Label
import Tileboard.Source.Document
import Tileboard.Source.Directory
import Tileboard.Source.Memory
import Tileboard.Filter.Dag
import Tileboard.Filter.Cache
import Tileboard.Workspace
import Tileboard.Service.Field
import Tileboard.Service.Request
import Tileboard.Service.Response
import Tileboard.Service.Route
import Tileboard.Proofs.Computation
import Tileboard.Proofs.Window.Previous
import Tileboard.Proofs.Window.Selection
import Tileboard.Proofs.Tile.Result
import Tileboard.Proofs.Measure.Outcome
import Tileboard.Proofs.Window.Comparison
import Tileboard.Proofs.Cache.Held
import Tileboard.Proofs.Cache.Making
import Tileboard.Proofs.Cache.Shelf
import Tileboard.Proofs.Column.Agreement
import Tileboard.Proofs.Column.Board
import Tileboard.Proofs.Filter.Strictness
import Tileboard.Proofs.Instant.Calendar
import Tileboard.Proofs.Number.Digits
import Tileboard.Proofs.Instant.Written
import Tileboard.Proofs.Filter.Passing
import Tileboard.Proofs.Window.DrillDown
import Tileboard.Proofs.Table.Rows
import Tileboard.Proofs.Table.Overlooking
import Tileboard.Proofs.Table.Agreement
import Tileboard.Proofs.Measure.Filing
import Tileboard.Proofs.Measure.Grouping
import Tileboard.Proofs.Measure.Partition
import Tileboard.Proofs.Value.Order
import Tileboard.Proofs.Filter.Description
import Tileboard.Proofs.Value.Alike
import Tileboard.Proofs.Filter.RoundTrip
import Tileboard.Proofs.Filter.Negation
import Tileboard.Proofs.Value.WellFormed
import Tileboard.Proofs.Value.Equivalence
import Tileboard.Proofs.Value.Chains
import Tileboard.Proofs.Value.StrictOrder
import Tileboard.Proofs.Filter.Rewriting
import Tileboard.Proofs.Window.Insertion
import Tileboard.Proofs.Board.Range
import Tileboard.Proofs.Measure.Restriction
import Tileboard.Proofs.Measure.Denoted
import Tileboard.Proofs.Measure.Settled
import Tileboard.Proofs.Measure.Returning
import Tileboard.Proofs.Tile.Coincidence
import Tileboard.Proofs.Cache.Growth
import Tileboard.Proofs.Tile.Filters
import Tileboard.Proofs.Workspace.Soundness
import Tileboard.Proofs.Workspace.Growth
import Tileboard.Proofs.Workspace.Answers
import Tileboard.Proofs.Workspace.Course
import Tileboard.Proofs.Tile.Apart
import Tileboard.Proofs.Filter.Conjunction
import Tileboard.Proofs.Text.Spelling
import Tileboard.Proofs.Lists
import Tileboard.Proofs.Source.Path
import Tileboard.Proofs.Source.Location
import Tileboard.Proofs.Source.Directory
import Tileboard.Proofs.Source.Memory
import Tileboard.Proofs.Tile.Groups
import Tileboard.Proofs.Board.Result
import Tileboard.Proofs.Board.Sorting
import Tileboard.Proofs.Board.Charts
import Tileboard.Proofs.Number.Whole
import Tileboard.Proofs.Board.Drawing
import Tileboard.Proofs.Service.Reading
import Tileboard.Proofs.Service.Agreement
import Tileboard.Proofs.Table.Record
import Tileboard.Proofs.Instant.Reading
import Tileboard.Proofs.Service.Sending
import Tileboard.Proofs.Service.Records
import Tileboard.Proofs.Json.Quoted
import Tileboard.Proofs.Json.Written
import Tileboard.Proofs.Source.Document
import Tileboard.Proofs.Source.Written
import Tileboard.Proofs.Service.Interchange
import Tileboard.Proofs.Service.Origin
import Tileboard.Proofs.Service.Refusal
import Tileboard.Proofs.Filter.Shadowing
import Tileboard.Proofs.Number.Exact
import Tileboard.Proofs.Instant.Order
import Tileboard.Proofs.Window.Dateless
import Tileboard.Proofs.Text.Folding
import Tileboard.Proofs.Filter.Asking
import Tileboard.Proofs.Text.Trimming
import Tileboard.Proofs.Number.Spelled
import Tileboard.Proofs.Number.Written
import Tileboard.Proofs.Number.Multiple
import Tileboard.Proofs.Number.Rounding
import Tileboard.Proofs.Filter.Pair
import Tileboard.Proofs.Number.Quotient
import Tileboard.Proofs.Number.Fitting
import Tileboard.Proofs.Text.Lowered
import Tileboard.Proofs.Text.Surroundings
import Tileboard.Proofs.Filter.Needle
import Tileboard.Proofs.Filter.Literal
import Tileboard.Proofs.Measure.Trend
import Tileboard.Proofs.Number.Scanned
import Tileboard.Proofs.Table.Numeric
import Tileboard.Proofs.Text.Normal
import Tileboard.Proofs.Filter.Narrowing
import Tileboard.Proofs.Tile.Click
import Tileboard.Proofs.Number.Bounded
import Tileboard.Proofs.Measure.Distinct
import Tileboard.Proofs.Number.Nearest
import Tileboard.Proofs.Table.Storage
import Tileboard.Proofs.Board.Bars
