import RouteEngine.Console.Arguments
import RouteEngine.Console.Check
import RouteEngine.Console.Help
import RouteEngine.Console.Listing
import RouteEngine.Console.Registry
import RouteEngine.Console.Report
import RouteEngine.Console.Run
import RouteEngine.Console.Values
import RouteEngine.Constraint.Basic
import RouteEngine.Constraint.Bound
import RouteEngine.Decimal.Nearest
import RouteEngine.Decimal.Shortest
import RouteEngine.Dict
import RouteEngine.Error
import RouteEngine.Escape.Path
import RouteEngine.Escape.Percent
import RouteEngine.File.Entries
import RouteEngine.File.Shape
import RouteEngine.Json.Basic
import RouteEngine.Json.Number
import RouteEngine.Json.Parser
import RouteEngine.Json.Printer
import RouteEngine.Link.Linker
import RouteEngine.Link.Query
import RouteEngine.Link.Values
import RouteEngine.Log.Basic
import RouteEngine.Log.Filter
import RouteEngine.Main
import RouteEngine.Names
import RouteEngine.Pattern.Arena
import RouteEngine.Pattern.Basic
import RouteEngine.Pattern.Compile
import RouteEngine.Pattern.Error
import RouteEngine.Pattern.Generation
import RouteEngine.Pattern.Matching
import RouteEngine.Pattern.Parser
import RouteEngine.Regex.Basic
import RouteEngine.Regex.Category
import RouteEngine.Regex.Matcher
import RouteEngine.Regex.Parser
import RouteEngine.Regex.Quote
import RouteEngine.Regex.Syntax
import RouteEngine.Regex.Whole
import RouteEngine.Request.Address
import RouteEngine.Request.Basic
import RouteEngine.Request.Header
import RouteEngine.Request.Method
import RouteEngine.Request.Origin
import RouteEngine.Request.Target
import RouteEngine.Route.Basic
import RouteEngine.Route.Declaration
import RouteEngine.Route.Endpoint
import RouteEngine.Route.Redirect
import RouteEngine.Route.Scope
import RouteEngine.Route.Verbs
import RouteEngine.Service.Assertion
import RouteEngine.Service.Basic
import RouteEngine.Settings.Basic
import RouteEngine.Settings.Decode
import RouteEngine.Settings.Document
import RouteEngine.Settings.Environment
import RouteEngine.Settings.Holder
import RouteEngine.Settings.Overlay
import RouteEngine.Settings.Override
import RouteEngine.Table.Basic
import RouteEngine.Table.Journal
import RouteEngine.Table.Recognition
import RouteEngine.Text.Distance
import RouteEngine.Text.Hex
import RouteEngine.Text.Identifier
import RouteEngine.Text.Numeral
import RouteEngine.Text.Printable
import RouteEngine.Text.Quoted
import RouteEngine.Text.Split
import RouteEngine.Text.Utf8
import RouteEngine.Text.White
import RouteEngine.Toml.Lexical
import RouteEngine.Toml.Parser
import RouteEngine.Toml.Scalar
import RouteEngine.Toml.Tree
import RouteEngine.Url.Basic
import RouteEngine.Url.Host
import RouteEngine.Url.Punycode
import RouteEngine.Proofs.Table.Drawing
import RouteEngine.Proofs.Pattern.Template
import RouteEngine.Proofs.Link.Template
import RouteEngine.Proofs.Escape.RoundTrip
import RouteEngine.Proofs.Regex.Onward
import RouteEngine.Proofs.Regex.Stretch
import RouteEngine.Proofs.Regex.Reading
import RouteEngine.Proofs.Pattern.Expression
import RouteEngine.Proofs.Dict
import RouteEngine.Proofs.Pattern.Walk
import RouteEngine.Proofs.Pattern.Preferred
import RouteEngine.Proofs.Pattern.Captured
import RouteEngine.Proofs.Pattern.Chain
import RouteEngine.Proofs.Pattern.Separated
import RouteEngine.Proofs.Pattern.Filling
import RouteEngine.Proofs.Pattern.RoundTrip
import RouteEngine.Proofs.Escape.Canonical
import RouteEngine.Proofs.Pattern.Parts
import RouteEngine.Proofs.Pattern.PlainPath
import RouteEngine.Proofs.Link.RoundTrip
import RouteEngine.Proofs.Route.Redirect
import RouteEngine.Proofs.Table.Calls
import RouteEngine.Proofs.Table.Recognition
import RouteEngine.Proofs.Regex.Alone
import RouteEngine.Proofs.Regex.Ahead
import RouteEngine.Proofs.Regex.Brackets
import RouteEngine.Proofs.Regex.Units
import RouteEngine.Proofs.Regex.Enclosed
import RouteEngine.Proofs.Regex.Persists
import RouteEngine.Proofs.Regex.Excerpt
import RouteEngine.Proofs.Regex.Numbering
import RouteEngine.Proofs.Pattern.Required
import RouteEngine.Proofs.Constraint.Segment
import RouteEngine.Proofs.Route.Enforced
import RouteEngine.Proofs.Regex.Language
import RouteEngine.Proofs.Regex.Cut
import RouteEngine.Proofs.Pattern.Language
import RouteEngine.Proofs.Pattern.Mounted
import RouteEngine.Proofs.Table.Drawn
import RouteEngine.Proofs.Escape.Declared
import RouteEngine.Proofs.Pattern.Slashes
import RouteEngine.Proofs.Pattern.Described
import RouteEngine.Proofs.Link.Missing
import RouteEngine.Proofs.Link.Recalled
import RouteEngine.Proofs.Link.Rejected
import RouteEngine.Proofs.Link.Nested
import RouteEngine.Proofs.Regex.Border
import RouteEngine.Proofs.Pattern.Slotted
import RouteEngine.Proofs.Link.Escaped
import RouteEngine.Proofs.Link.Unnamed
import RouteEngine.Proofs.Service.Serving
import RouteEngine.Proofs.Escape.Alphabet
import RouteEngine.Proofs.Pattern.Tokens
import RouteEngine.Proofs.Pattern.Stack
import RouteEngine.Proofs.Pattern.Arena
import RouteEngine.Proofs.Pattern.Mentions
import RouteEngine.Proofs.Pattern.Aligned
import RouteEngine.Proofs.Escape.Scan
import RouteEngine.Proofs.Escape.Undecodable
import RouteEngine.Proofs.Escape.FinalSlash
import RouteEngine.Proofs.Table.Canonical
import RouteEngine.Proofs.Route.Innermost
import RouteEngine.Proofs.Table.Roots
import RouteEngine.Proofs.Constraint.WholeValue
import RouteEngine.Proofs.Route.Nesting
import RouteEngine.Proofs.Route.Filtered
import RouteEngine.Proofs.Escape.Ending
import RouteEngine.Proofs.Pattern.Demands
import RouteEngine.Proofs.Route.Format
import RouteEngine.Proofs.Pattern.Marks
import RouteEngine.Proofs.Table.Shadowed
import RouteEngine.Proofs.Text.Distance
import RouteEngine.Proofs.Route.Response
import RouteEngine.Proofs.Link.Query
import RouteEngine.Proofs.Link.Components
import RouteEngine.Proofs.Text.Suggestion
import RouteEngine.Proofs.Json.Path
import RouteEngine.Proofs.Settings.Overlay
import RouteEngine.Proofs.Settings.Document
import RouteEngine.Proofs.Pattern.Monotone
import RouteEngine.Proofs.Pattern.Normalized
import RouteEngine.Proofs.Request.Labels
import RouteEngine.Proofs.Route.Resolution
import RouteEngine.Proofs.Route.Controller
import RouteEngine.Proofs.Table.Matched
import RouteEngine.Proofs.Table.Handle
import RouteEngine.Proofs.Link.Positional
import RouteEngine.Proofs.Settings.Scoped
import RouteEngine.Proofs.Console.Listing
import RouteEngine.Proofs.Table.Checked
