import Pagewright.Command
import Pagewright.CommandLine.Arguments
import Pagewright.CommandLine.Program
import Pagewright.Datum
import Pagewright.Diagnostic
import Pagewright.Document
import Pagewright.FileTree
import Pagewright.Generator
import Pagewright.Genre
import Pagewright.Json
import Pagewright.Main
import Pagewright.Markup.EndTag
import Pagewright.Markup.Escape
import Pagewright.Markup.Fragment
import Pagewright.Number.Binary
import Pagewright.Number.Shortest
import Pagewright.Page.Canvas
import Pagewright.Page.Generator
import Pagewright.Page.Head
import Pagewright.Page.Vocabulary
import Pagewright.Proofs.Alignment
import Pagewright.Proofs.Avoiding
import Pagewright.Proofs.Calls
import Pagewright.Proofs.CommandLine.Arguments
import Pagewright.Proofs.CommandLine.Running
import Pagewright.Proofs.Commands
import Pagewright.Proofs.Diagnostics
import Pagewright.Proofs.Document
import Pagewright.Proofs.Failure
import Pagewright.Proofs.FileTree.Listing
import Pagewright.Proofs.FileTree.Paths
import Pagewright.Proofs.FileTree.Places
import Pagewright.Proofs.Fonts
import Pagewright.Proofs.Generator
import Pagewright.Proofs.Genre
import Pagewright.Proofs.Isolation
import Pagewright.Proofs.Json.Reading
import Pagewright.Proofs.Json.Writing
import Pagewright.Proofs.Layout
import Pagewright.Proofs.Markup.Breaking
import Pagewright.Proofs.Markup.Decoding
import Pagewright.Proofs.Markup.EndTag
import Pagewright.Proofs.Markup.Tag
import Pagewright.Proofs.Markup.Written
import Pagewright.Proofs.Messages
import Pagewright.Proofs.Offsets.Document
import Pagewright.Proofs.Offsets.Generators
import Pagewright.Proofs.Offsets.Report
import Pagewright.Proofs.Offsets.Words
import Pagewright.Proofs.Order
import Pagewright.Proofs.Page.Body
import Pagewright.Proofs.Page.Bracketing
import Pagewright.Proofs.Page.Elements
import Pagewright.Proofs.Page.Frame
import Pagewright.Proofs.Page.Lifecycle
import Pagewright.Proofs.Page.Skeleton
import Pagewright.Proofs.Placement
import Pagewright.Proofs.Replacement
import Pagewright.Proofs.Report
import Pagewright.Proofs.Routing
import Pagewright.Proofs.Script.Brackets
import Pagewright.Proofs.Script.Codes
import Pagewright.Proofs.Script.Confinement
import Pagewright.Proofs.Script.Literals
import Pagewright.Proofs.Script.Nesting
import Pagewright.Proofs.Script.Operators
import Pagewright.Proofs.Source
import Pagewright.Proofs.Source.Spans
import Pagewright.Proofs.Stylesheet.Meaning
import Pagewright.Proofs.Stylesheet.Reading
import Pagewright.Proofs.Stylesheet.Strings
import Pagewright.Proofs.Stylesheet.Verbatim
import Pagewright.Proofs.Suite.Categories
import Pagewright.Proofs.Suite.Cutting
import Pagewright.Proofs.Suite.Delimited
import Pagewright.Proofs.Suite.Labels
import Pagewright.Proofs.Suite.Running
import Pagewright.Proofs.Suite.Verdict
import Pagewright.Proofs.Summary
import Pagewright.Proofs.Text.Literal
import Pagewright.Proofs.Text.Search
import Pagewright.Proofs.Text.Slice
import Pagewright.Proofs.Unknown
import Pagewright.Proofs.Words.Keys
import Pagewright.Proofs.Words.Printing
import Pagewright.Proofs.Words.Reading
import Pagewright.Proofs.Words.Rest
import Pagewright.Proofs.Words.Segments
import Pagewright.Report
import Pagewright.Script.Action
import Pagewright.Script.Expression
import Pagewright.Script.Generator
import Pagewright.Script.Vocabulary
import Pagewright.Settings
import Pagewright.Settings.Reading
import Pagewright.Source.Line
import Pagewright.Source.Section
import Pagewright.Stylesheet.Generator
import Pagewright.Stylesheet.Sheet
import Pagewright.Stylesheet.Vocabulary
import Pagewright.Suite.Category
import Pagewright.Suite.Expectation
import Pagewright.Suite.Run
import Pagewright.Suite.TestFile
import Pagewright.Summary
import Pagewright.Text.Blank
import Pagewright.Text.Bytes
import Pagewright.Text.Extending
import Pagewright.Text.Graphic
import Pagewright.Text.Indented
import Pagewright.Text.Literal
import Pagewright.Text.Ranges
import Pagewright.Text.Search
import Pagewright.Text.Visible
import Pagewright.Toml.Assembly
import Pagewright.Toml.Document
import Pagewright.Toml.Lexeme
import Pagewright.Toml.Reader
import Pagewright.Word
