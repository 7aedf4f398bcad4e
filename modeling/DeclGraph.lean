import DeclGraph.Access
import DeclGraph.Ast.Extract
import DeclGraph.Ast.ObjC
import DeclGraph.Ast.Swift
import DeclGraph.Ast.Vocabulary
import DeclGraph.Ast.Walk
import DeclGraph.Cli.Arguments
import DeclGraph.Cli.Command
import DeclGraph.Cli.Report
import DeclGraph.Cli.Run
import DeclGraph.Config.Basic
import DeclGraph.Config.Conversion
import DeclGraph.Config.Environment
import DeclGraph.Config.Layers
import DeclGraph.Config.User
import DeclGraph.Config.Validation
import DeclGraph.Dialect
import DeclGraph.Discovery
import DeclGraph.Display.Grid
import DeclGraph.Display.Markup
import DeclGraph.Display.Shortcode
import DeclGraph.Duration
import DeclGraph.Fault
import DeclGraph.FileTree
import DeclGraph.Graph.Basic
import DeclGraph.Graph.Build
import DeclGraph.Graph.Edges
import DeclGraph.Graph.Indexes
import DeclGraph.Graph.TypeMap
import DeclGraph.Host
import DeclGraph.Json.Basic
import DeclGraph.Json.Equiv
import DeclGraph.Json.Literal
import DeclGraph.Json.Parser
import DeclGraph.Json.Printer
import DeclGraph.Logging
import DeclGraph.Main
import DeclGraph.Number.Binary64
import DeclGraph.Number.Places
import DeclGraph.Number.Shortest
import DeclGraph.Parsing
import DeclGraph.Path
import DeclGraph.Problem
import DeclGraph.Query.Basic
import DeclGraph.Query.Explain
import DeclGraph.Query.Overview
import DeclGraph.Query.Resolve
import DeclGraph.Query.Search
import DeclGraph.Query.Usages
import DeclGraph.Scan
import DeclGraph.Server.Basic
import DeclGraph.Server.Call
import DeclGraph.Server.Result
import DeclGraph.Session
import DeclGraph.Snapshot.Document
import DeclGraph.Snapshot.File
import DeclGraph.Symbol.Basic
import DeclGraph.Symbol.Codec
import DeclGraph.Symbol.Kind
import DeclGraph.Table
import DeclGraph.Text.Basic
import DeclGraph.Text.Blank
import DeclGraph.Text.Case
import DeclGraph.Text.Case.Ranges
import DeclGraph.Text.Digit
import DeclGraph.Text.Printable
import DeclGraph.Text.Utf8
import DeclGraph.Text.Width
import DeclGraph.Wording
import DeclGraph.Yaml.Node
import DeclGraph.Yaml.Reader
import DeclGraph.Yaml.Scalar
import DeclGraph.Yaml.Writer
import DeclGraph.Proofs.Table
import DeclGraph.Proofs.Except
import DeclGraph.Proofs.FileTree
import DeclGraph.Proofs.Json.Depth
import DeclGraph.Proofs.Json.RoundTrip
import DeclGraph.Proofs.Text.Utf8
import DeclGraph.Proofs.Graph.Codec
import DeclGraph.Proofs.Ast.Walk
import DeclGraph.Proofs.Snapshot.Document
import DeclGraph.Proofs.Snapshot.File
import DeclGraph.Proofs.Snapshot.Legacy
import DeclGraph.Proofs.Ast.Declared
import DeclGraph.Proofs.Graph.Build
import DeclGraph.Proofs.Graph.Indexes
import DeclGraph.Proofs.Query.Resolve
import DeclGraph.Proofs.Query.Settled
import DeclGraph.Proofs.Query.Usages
import DeclGraph.Proofs.Session.Reload
import DeclGraph.Proofs.Session.Run
import DeclGraph.Proofs.Graph.Types
import DeclGraph.Proofs.Query.Search
import DeclGraph.Proofs.Query.Askable
import DeclGraph.Proofs.Snapshot.Safe
import DeclGraph.Proofs.Snapshot.Resave
import DeclGraph.Proofs.Ast.Refused
import DeclGraph.Proofs.Ast.Prune
import DeclGraph.Proofs.Ast.Members
import DeclGraph.Proofs.Ast.Outline
import DeclGraph.Proofs.Graph.Failing
import DeclGraph.Proofs.Graph.Isolation
import DeclGraph.Proofs.Graph.IndexTables
import DeclGraph.Proofs.Query.Locality
import DeclGraph.Proofs.Query.Stats
import DeclGraph.Proofs.Query.Reordering
import DeclGraph.Proofs.Server.Load
import DeclGraph.Proofs.Discovery
import DeclGraph.Proofs.Parsing
import DeclGraph.Proofs.Scan
import DeclGraph.Proofs.Path
import DeclGraph.Proofs.Graph.WellFormed
import DeclGraph.Proofs.Snapshot.Kinds
import DeclGraph.Proofs.Text.Case
import DeclGraph.Proofs.Query.Substring
import DeclGraph.Proofs.Query.Limits
import DeclGraph.Proofs.Server.Search
import DeclGraph.Proofs.Cli.Search
import DeclGraph.Proofs.Query.Home
import DeclGraph.Proofs.Query.Overview
import DeclGraph.Proofs.Discovery.Exact
import DeclGraph.Proofs.Ast.Reading
import DeclGraph.Proofs.Ast.Removal
import DeclGraph.Proofs.Ast.Category
import DeclGraph.Proofs.Config.Merge
import DeclGraph.Proofs.Config.Precedence
import DeclGraph.Proofs.Snapshot.Reopened
import DeclGraph.Proofs.Server.Cut
import DeclGraph.Proofs.Cli.Shortened
import DeclGraph.Proofs.Yaml.Node
import DeclGraph.Proofs.Yaml.Cursor
import DeclGraph.Proofs.Yaml.Quoted
import DeclGraph.Proofs.Yaml.Plain
import DeclGraph.Proofs.Yaml.Items
import DeclGraph.Proofs.Yaml.Line
import DeclGraph.Proofs.Yaml.Document
import DeclGraph.Proofs.Yaml.Scan
import DeclGraph.Proofs.Yaml.Block
import DeclGraph.Proofs.Yaml.Weight
import DeclGraph.Proofs.Yaml.Overrun
import DeclGraph.Proofs.Yaml.Entries
import DeclGraph.Proofs.Yaml.LineStart
import DeclGraph.Proofs.Config.UserFile
import DeclGraph.Proofs.Config.SnapshotName
