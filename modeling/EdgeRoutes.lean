import EdgeRoutes.CommandLine.Help
import EdgeRoutes.CommandLine.Invocation
import EdgeRoutes.CommandLine.Run
import EdgeRoutes.CommandLine.Switch
import EdgeRoutes.Compile.Error
import EdgeRoutes.Compile.Event
import EdgeRoutes.Compile.Pipeline
import EdgeRoutes.Compile.Traced
import EdgeRoutes.Config.Basic
import EdgeRoutes.Config.Reader
import EdgeRoutes.Config.Validation
import EdgeRoutes.Decimal.Layout
import EdgeRoutes.Decimal.Shortest
import EdgeRoutes.FileTree
import EdgeRoutes.Handler.Hole
import EdgeRoutes.Handler.Literal
import EdgeRoutes.Handler.MinifiedText
import EdgeRoutes.Handler.Source
import EdgeRoutes.Handler.SourceText
import EdgeRoutes.Handler.Template
import EdgeRoutes.Json.Basic
import EdgeRoutes.Json.Fault
import EdgeRoutes.Json.Number
import EdgeRoutes.Json.Printer
import EdgeRoutes.Json.Reader
import EdgeRoutes.Json.Scanner
import EdgeRoutes.Json.Skipper
import EdgeRoutes.Main
import EdgeRoutes.Manifest.Admission
import EdgeRoutes.Manifest.Basic
import EdgeRoutes.Manifest.Printer
import EdgeRoutes.Manifest.Reader
import EdgeRoutes.Path
import EdgeRoutes.Proofs.CommandLine.Effects
import EdgeRoutes.Proofs.Compile.Incompatible
import EdgeRoutes.Proofs.Compile.Invariance
import EdgeRoutes.Proofs.Compile.RouteTable
import EdgeRoutes.Proofs.Compile.Size
import EdgeRoutes.Proofs.Config.Document
import EdgeRoutes.Proofs.Config.Partial
import EdgeRoutes.Proofs.Config.Validation
import EdgeRoutes.Proofs.Handler.Conformance
import EdgeRoutes.Proofs.Handler.Emission
import EdgeRoutes.Proofs.Handler.Parity
import EdgeRoutes.Proofs.Handler.Reading
import EdgeRoutes.Proofs.Handler.Rendering
import EdgeRoutes.Proofs.Handler.Script
import EdgeRoutes.Proofs.Handler.Search
import EdgeRoutes.Proofs.Json.Members
import EdgeRoutes.Proofs.Json.Reading
import EdgeRoutes.Proofs.Json.Size
import EdgeRoutes.Proofs.Manifest.Admission
import EdgeRoutes.Proofs.Path
import EdgeRoutes.Proofs.Resolution.Addition
import EdgeRoutes.Proofs.Resolution.Narrowing
import EdgeRoutes.Proofs.Resolution.Shadowing
import EdgeRoutes.Proofs.Resolution.Steps
import EdgeRoutes.Proofs.Resolution.Targets
import EdgeRoutes.Proofs.Resolution.TrailingSlash
import EdgeRoutes.Proofs.Script.Constants
import EdgeRoutes.Proofs.Script.Execution
import EdgeRoutes.Proofs.Script.Paths
import EdgeRoutes.Proofs.Script.Syntax
import EdgeRoutes.Proofs.Script.Units
import EdgeRoutes.Proofs.Script.Values
import EdgeRoutes.Proofs.Table.Freezing
import EdgeRoutes.Proofs.Table.Json
import EdgeRoutes.Proofs.Table.Members
import EdgeRoutes.Proofs.Table.Rebuilding
import EdgeRoutes.Proofs.Table.Refinement
import EdgeRoutes.Proofs.Table.Size
import EdgeRoutes.Proofs.Template
import EdgeRoutes.Proofs.Template.Splitting
import EdgeRoutes.Proofs.Toml.Grammar
import EdgeRoutes.Proofs.Toml.Scanning
import EdgeRoutes.Proofs.Trie.History
import EdgeRoutes.Proofs.Trie.Insertion
import EdgeRoutes.Proofs.Trie.Pages
import EdgeRoutes.Proofs.Trie.Paths
import EdgeRoutes.Resolution
import EdgeRoutes.Segment
import EdgeRoutes.Table.Basic
import EdgeRoutes.Table.Json
import EdgeRoutes.Text.Basic
import EdgeRoutes.Text.Quoted
import EdgeRoutes.Toml.Document
import EdgeRoutes.Toml.Expression
import EdgeRoutes.Toml.Item
import EdgeRoutes.Toml.Number
import EdgeRoutes.Toml.Scanner
import EdgeRoutes.Toml.Shape
import EdgeRoutes.Trie.Basic
