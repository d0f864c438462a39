import Handbook.Colorize.Catalog
import Handbook.Layout.Reference
import Handbook.Main
import Handbook.Markdown.Anchor
import Handbook.Markdown.Escape
import Handbook.Pattern.Source
import Handbook.Render
import Handbook.Tool.Browse
import Handbook.Tool.Envelope
import Handbook.Tool.Help
import Handbook.Proofs.Pattern.Scan
import Handbook.Proofs.Pattern.Delimited
import Handbook.Proofs.Terminal.Intact
import Handbook.Proofs.Terminal.Sweep
import Handbook.Proofs.Pattern.Prose
import Handbook.Proofs.Colorize.Prose
import Handbook.Proofs.Text.Indent
import Handbook.Proofs.Pattern.Code
import Handbook.Proofs.Pattern.Sheet
import Handbook.Proofs.Terminal.Frayed
import Handbook.Proofs.Colorize.Code
import Handbook.Proofs.Colorize.Comment
import Handbook.Proofs.Colorize.Cheatsheet
import Handbook.Proofs.Result
import Handbook.Proofs.Utf8
import Handbook.Proofs.Json.Spelling
import Handbook.Proofs.Json.String
import Handbook.Proofs.Json.Container
import Handbook.Proofs.Json.Reader
import Handbook.Proofs.Json.Restate
import Handbook.Proofs.Schema.Conforms
import Handbook.Proofs.Schema.Dump
import Handbook.Proofs.Document.Format
import Handbook.Proofs.Document.Parse
import Handbook.Proofs.Document.Fault
import Handbook.Proofs.Utf8.Fault
import Handbook.Proofs.Store.Cache
import Handbook.Proofs.Store.History
import Handbook.Proofs.Store.Loading
import Handbook.Proofs.Json.WellFormed
import Handbook.Proofs.Render.Reference
import Handbook.Proofs.Render.Raw
import Handbook.Proofs.Render.Stages
import Handbook.Proofs.Tool.Help
import Handbook.Proofs.Tool.Browse
import Handbook.Proofs.Terminal.Moored
import Handbook.Proofs.Colorize.Moored
import Handbook.Proofs.Text.Wrap
import Handbook.Proofs.Text.Fill
import Handbook.Proofs.Text.Greedy
import Handbook.Proofs.Layout.Entry
import Handbook.Proofs.Layout.Reference
import Handbook.Proofs.Layout.Outline
import Handbook.Proofs.Layout.Markdown
import Handbook.Proofs.Layout.Cheatsheet
import Handbook.Proofs.Terminal.Pen
import Handbook.Proofs.Colorize.Sealed
import Handbook.Proofs.Colorize.Linewise
import Handbook.Proofs.Terminal.Nesting
import Handbook.Proofs.Colorize.Nested
import Handbook.Proofs.Colorize.Block
import Handbook.Proofs.Colorize.Triggers
import Handbook.Proofs.Unicode.Lowercase
import Handbook.Proofs.Text.Lower
import Handbook.Proofs.Layout.Query
import Handbook.Proofs.Layout.Operator
import Handbook.Proofs.Layout.Column
import Handbook.Proofs.Colorize.Numeral
import Handbook.Proofs.Terminal.Placed
import Handbook.Proofs.Colorize.Placed
import Handbook.Proofs.Colorize.Dimmed
import Handbook.Proofs.Colorize.CrossReference
import Handbook.Proofs.Layout.Absent
import Handbook.Proofs.Layout.Emphasis
import Handbook.Proofs.Layout.Signature
import Handbook.Proofs.Markdown.Anchor
import Handbook.Proofs.Colorize.Untouched
import Handbook.Proofs.Markdown.LineBreak
import Handbook.Proofs.Text.Words
import Handbook.Proofs.Tool.Name
