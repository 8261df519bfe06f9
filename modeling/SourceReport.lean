import SourceReport.Command.Console
import SourceReport.Command.Format
import SourceReport.Command.Grammar
import SourceReport.Command.Help
import SourceReport.Command.Locate
import SourceReport.Command.Program
import SourceReport.Command.Reach
import SourceReport.Command.Render
import SourceReport.Command.Session
import SourceReport.Command.Similar
import SourceReport.Command.Status
import SourceReport.Command.Value
import SourceReport.Command.Version
import SourceReport.Data.Json.Printer
import SourceReport.Data.Json.Reader
import SourceReport.Data.Literal
import SourceReport.Data.Reading
import SourceReport.Data.Toml.Key
import SourceReport.Data.Toml.Moment
import SourceReport.Data.Toml.Number
import SourceReport.Data.Toml.Quoted
import SourceReport.Data.Toml.Reader
import SourceReport.Data.Toml.Tree
import SourceReport.Data.Toml.Values
import SourceReport.Data.Value
import SourceReport.Decimal.Notation
import SourceReport.Decimal.Shortest
import SourceReport.Diagnostic.Basic
import SourceReport.Diagnostic.Label
import SourceReport.Diagnostic.Level
import SourceReport.Diagnostic.Validation
import SourceReport.Digest.Blake2b
import SourceReport.Document.Basic
import SourceReport.Document.Error
import SourceReport.Document.Fields
import SourceReport.Document.Reader
import SourceReport.Exchange.Decode
import SourceReport.Exchange.Encode
import SourceReport.Files.Path
import SourceReport.Files.Tree
import SourceReport.Layout.Cells
import SourceReport.Layout.DisplayLine
import SourceReport.Layout.Lanes
import SourceReport.Layout.Order
import SourceReport.Layout.Placement
import SourceReport.Layout.Width
import SourceReport.Layout.Window
import SourceReport.Log.Level
import SourceReport.Log.Record
import SourceReport.Main
import SourceReport.Output.Ansi
import SourceReport.Output.Event
import SourceReport.Output.Html
import SourceReport.Output.Sink
import SourceReport.Output.Svg
import SourceReport.Proofs.Command.Action
import SourceReport.Proofs.Command.ExitStatus
import SourceReport.Proofs.Command.Locate
import SourceReport.Proofs.Command.Stages
import SourceReport.Proofs.Diagnostic.RunningCheck
import SourceReport.Proofs.Document.Loading
import SourceReport.Proofs.Document.Reader
import SourceReport.Proofs.Document.Refusal
import SourceReport.Proofs.Document.SourceOrder
import SourceReport.Proofs.Files.Ancestors
import SourceReport.Proofs.Layout.DisplayLine
import SourceReport.Proofs.Layout.Extent
import SourceReport.Proofs.Layout.Gaps
import SourceReport.Proofs.Layout.Lanes
import SourceReport.Proofs.Layout.Nesting
import SourceReport.Proofs.Layout.Order
import SourceReport.Proofs.Layout.Width
import SourceReport.Proofs.Layout.Window
import SourceReport.Proofs.Output.Agreement
import SourceReport.Proofs.Output.Ansi
import SourceReport.Proofs.Output.Html
import SourceReport.Proofs.Output.Pieces
import SourceReport.Proofs.Output.Renderer
import SourceReport.Proofs.Output.Selection
import SourceReport.Proofs.Output.Sequence
import SourceReport.Proofs.Output.Sink
import SourceReport.Proofs.Output.Svg
import SourceReport.Proofs.Output.Xml
import SourceReport.Proofs.Report.Body
import SourceReport.Proofs.Report.Canvas
import SourceReport.Proofs.Report.Carets
import SourceReport.Proofs.Report.Connectors
import SourceReport.Proofs.Report.Contest
import SourceReport.Proofs.Report.CrossGap
import SourceReport.Proofs.Report.Crossing
import SourceReport.Proofs.Report.Difference
import SourceReport.Proofs.Report.Drawing
import SourceReport.Proofs.Report.Gutter
import SourceReport.Proofs.Report.Hanging
import SourceReport.Proofs.Report.Header
import SourceReport.Proofs.Report.Ink
import SourceReport.Proofs.Report.Issues
import SourceReport.Proofs.Report.Labels
import SourceReport.Proofs.Report.Lead
import SourceReport.Proofs.Report.Locator
import SourceReport.Proofs.Report.Margin
import SourceReport.Proofs.Report.Messages
import SourceReport.Proofs.Report.Owners
import SourceReport.Proofs.Report.PaintedMargin
import SourceReport.Proofs.Report.PaintedMarks
import SourceReport.Proofs.Report.Placing
import SourceReport.Proofs.Report.Printed
import SourceReport.Proofs.Report.Recolor
import SourceReport.Proofs.Report.Redraw
import SourceReport.Proofs.Report.Registered
import SourceReport.Proofs.Report.Repair
import SourceReport.Proofs.Report.Resolution
import SourceReport.Proofs.Report.Row
import SourceReport.Proofs.Report.Runs
import SourceReport.Proofs.Report.Snippet
import SourceReport.Proofs.Report.Underline
import SourceReport.Proofs.Settings.Discovery
import SourceReport.Proofs.Settings.Elements
import SourceReport.Proofs.Settings.Layers
import SourceReport.Proofs.Settings.Misfits
import SourceReport.Proofs.Settings.Setting
import SourceReport.Proofs.Settings.Slots
import SourceReport.Proofs.Settings.Stack
import SourceReport.Proofs.Settings.Theme
import SourceReport.Proofs.Settings.Written
import SourceReport.Proofs.Source.Boundary
import SourceReport.Proofs.Source.Cabinet
import SourceReport.Proofs.Source.Column
import SourceReport.Proofs.Source.Dictionary
import SourceReport.Proofs.Source.Identity
import SourceReport.Proofs.Source.Inquiry
import SourceReport.Proofs.Source.LineRange
import SourceReport.Proofs.Source.Lines
import SourceReport.Proofs.Source.Location
import SourceReport.Proofs.Source.Lookup
import SourceReport.Proofs.Source.Notation
import SourceReport.Proofs.Source.Order
import SourceReport.Proofs.Source.Overlap
import SourceReport.Proofs.Source.Position
import SourceReport.Proofs.Source.Refusal
import SourceReport.Proofs.Source.Registration
import SourceReport.Proofs.Source.Registry
import SourceReport.Proofs.Source.Search
import SourceReport.Proofs.Source.Store
import SourceReport.Proofs.Source.Units
import SourceReport.Proofs.Style.Color
import SourceReport.Proofs.Style.Palette
import SourceReport.Proofs.Text.Characters
import SourceReport.Proofs.Text.Continuation
import SourceReport.Proofs.Text.Encoding
import SourceReport.Proofs.Text.Numeral
import SourceReport.Proofs.Text.Pattern
import SourceReport.Proofs.Text.Unambiguous
import SourceReport.Report.Basic
import SourceReport.Report.Body
import SourceReport.Report.Header
import SourceReport.Report.Margin
import SourceReport.Report.Marks
import SourceReport.Report.Row
import SourceReport.Report.Snippet
import SourceReport.Settings.Basic
import SourceReport.Settings.Choice
import SourceReport.Settings.Files
import SourceReport.Settings.Reader
import SourceReport.Settings.Warning
import SourceReport.Source.Basic
import SourceReport.Source.Boundary
import SourceReport.Source.Error
import SourceReport.Source.Lines
import SourceReport.Source.Name
import SourceReport.Source.Position
import SourceReport.Source.Registry
import SourceReport.Source.Span
import SourceReport.Style.Basic
import SourceReport.Style.Color
import SourceReport.Style.ColorMode
import SourceReport.Style.Glyphs
import SourceReport.Style.Palette
import SourceReport.Style.Theme
import SourceReport.Text.Basic
import SourceReport.Text.Blank
import SourceReport.Text.CodePoint
import SourceReport.Text.Combining
import SourceReport.Text.Digit
import SourceReport.Text.Format
import SourceReport.Text.Integer
import SourceReport.Text.Quoted
import SourceReport.Text.RangeTable
import SourceReport.Text.Unassigned
import SourceReport.Text.Utf8
import SourceReport.Text.Wide
