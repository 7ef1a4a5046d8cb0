import Stencil.Text.Basic
import Stencil.Text.Cut
import Stencil.Text.Html
import Stencil.Text.Percent
import Stencil.Text.Quoted
import Stencil.Text.Scanner
import Stencil.Text.Space
import Stencil.Text.Utf8
import Stencil.Text.Word
import Stencil.Decimal.Binary
import Stencil.Decimal.Notation
import Stencil.Decimal.Ratio
import Stencil.Decimal.Read
import Stencil.Decimal.Shortest
import Stencil.Entries
import Stencil.Storage.Fault
import Stencil.Storage.Path
import Stencil.Storage.Tree
import Stencil.Sprintf.Fault
import Stencil.Error
import Stencil.Placeholder.Find
import Stencil.Placeholder.Quote
import Stencil.Placeholder.Slot
import Stencil.Placeholder.Spacing
import Stencil.Value.Basic
import Stencil.Value.Date
import Stencil.Value.Edit
import Stencil.Value.Equal
import Stencil.Value.Merge
import Stencil.Value.Number
import Stencil.Value.Settle
import Stencil.Value.Show
import Stencil.Json.Number
import Stencil.Json.Read
import Stencil.Json.Text
import Stencil.Toml.Lexis
import Stencil.Toml.Read
import Stencil.Toml.Scalar
import Stencil.Toml.String
import Stencil.Toml.Table
import Stencil.Settings.Basic
import Stencil.Settings.Overlay
import Stencil.Sprintf.Directive
import Stencil.Sprintf.Format
import Stencil.Sprintf.Machine
import Stencil.Calendar.Date
import Stencil.Calendar.Moment
import Stencil.Calendar.Read
import Stencil.Calendar.Write
import Stencil.Calendar.Zone
import Stencil.Filter.Builtin
import Stencil.Filter.Call
import Stencil.Filter.Pipeline
import Stencil.Filter.Query
import Stencil.Filter.Registry
import Stencil.Filter.Row
import Stencil.Template.Basic
import Stencil.Template.Render
import Stencil.Template.Substitute
import Stencil.Workspace.Action
import Stencil.Workspace.Basic
import Stencil.Proofs.Chars
import Stencil.Proofs.Occurrence
import Stencil.Proofs.OpenQuote
import Stencil.Proofs.Opening
import Stencil.Proofs.Tidy
import Stencil.Proofs.Reading
import Stencil.Proofs.Binding
import Stencil.Proofs.Simultaneous
import Stencil.Proofs.Segment
import Stencil.Proofs.Entities
import Stencil.Proofs.Escaping
import Stencil.Proofs.Form
import Stencil.Proofs.LoneBrace
import Stencil.Proofs.Literal
import Stencil.Proofs.Override
import Stencil.Proofs.Ownership
import Stencil.Proofs.Rewriting
import Stencil.Proofs.Turns
import Stencil.Proofs.Pipes
import Stencil.Proofs.RoundTrip
import Stencil.Proofs.Reloading
import Stencil.Proofs.Discovery
import Stencil.Proofs.Splicing
import Stencil.Proofs.Accumulation
import Stencil.Proofs.Unescaped
import Stencil.Proofs.Mapping
import Stencil.Proofs.Inlining
import Stencil.Proofs.JsonRoundTrip
import Stencil.Proofs.Merging
import Stencil.Proofs.Ordered
import Stencil.Proofs.Directives
import Stencil.Proofs.InRange
import Stencil.Proofs.Formatting
import Stencil.Proofs.Registry
import Stencil.Proofs.Snapshot
import Stencil.Proofs.Reassigning
import Stencil.Proofs.RowSlots
import Stencil.Proofs.PercentBytes
import Stencil.Proofs.Leaves
import Stencil.Proofs.Integers
import Stencil.Proofs.Search
import Stencil.Proofs.Positions
import Stencil.Proofs.Layers
import Stencil.Proofs.Documents
import Stencil.Proofs.Precedence
import Stencil.Proofs.Days
import Stencil.Proofs.Months
import Stencil.Proofs.Composition
