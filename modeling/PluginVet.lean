import PluginVet.Check.Mappings
import PluginVet.Check.Returns
import PluginVet.Command.Execution
import PluginVet.Command.Invocation
import PluginVet.Command.Line
import PluginVet.Command.Usage
import PluginVet.Config.Basic
import PluginVet.Config.Decode
import PluginVet.Config.File
import PluginVet.Coverage
import PluginVet.Decimal.Nearest
import PluginVet.Decimal.Power
import PluginVet.Decimal.Shortest
import PluginVet.Expansion
import PluginVet.Expression.Candidate
import PluginVet.Expression.Rule
import PluginVet.FileTree.Basic
import PluginVet.FileTree.Change
import PluginVet.FileTree.Resolve
import PluginVet.FileTree.Walk
import PluginVet.Finding
import PluginVet.FrontMatter
import PluginVet.Glob
import PluginVet.Json.Basic
import PluginVet.Json.Compare
import PluginVet.Json.Printer
import PluginVet.Json.Reader
import PluginVet.Keyed
import PluginVet.Main
import PluginVet.Manifest.Basic
import PluginVet.Manifest.Decode
import PluginVet.Mismatch
import PluginVet.Path
import PluginVet.Pattern.Basic
import PluginVet.Pattern.Reader
import PluginVet.Plugin
import PluginVet.Pointer
import PluginVet.Proofs.Attempt
import PluginVet.Proofs.Check.Entities
import PluginVet.Proofs.Check.Pointers
import PluginVet.Proofs.Check.Properties
import PluginVet.Proofs.Check.Switches
import PluginVet.Proofs.Config.Root
import PluginVet.Proofs.Config.Saved
import PluginVet.Proofs.Containment
import PluginVet.Proofs.Coverage
import PluginVet.Proofs.Discovery
import PluginVet.Proofs.Expansion
import PluginVet.Proofs.Expression.Candidate
import PluginVet.Proofs.Expression.Comparison
import PluginVet.Proofs.Expression.Iteration
import PluginVet.Proofs.Expression.Quoting
import PluginVet.Proofs.Expression.Search
import PluginVet.Proofs.Expression.Ternary
import PluginVet.Proofs.FileTree.Change
import PluginVet.Proofs.FileTree.Content
import PluginVet.Proofs.FileTree.Growth
import PluginVet.Proofs.FileTree.Moves
import PluginVet.Proofs.FileTree.Route
import PluginVet.Proofs.FileTree.Update
import PluginVet.Proofs.FileTree.Walk
import PluginVet.Proofs.FrontMatter
import PluginVet.Proofs.Json.Canonical
import PluginVet.Proofs.Keyed
import PluginVet.Proofs.Manifest.Decode
import PluginVet.Proofs.Manifest.Places
import PluginVet.Proofs.Manifest.Sections
import PluginVet.Proofs.Path.Steps
import PluginVet.Proofs.Pointer
import PluginVet.Proofs.Quarantine
import PluginVet.Proofs.References.Audit
import PluginVet.Proofs.References.Issues
import PluginVet.Proofs.Registry.Definitions
import PluginVet.Proofs.Registry.Load
import PluginVet.Proofs.Registry.Unread
import PluginVet.Proofs.Report.Run
import PluginVet.Proofs.Run.Bystanders
import PluginVet.Proofs.Run.Convergence
import PluginVet.Proofs.Run.Files
import PluginVet.Proofs.Run.Named
import PluginVet.Proofs.Run.Reach
import PluginVet.Proofs.Run.Relocation
import PluginVet.Proofs.Schema.Check
import PluginVet.Proofs.Schema.Place
import PluginVet.Proofs.Schema.Plugin
import PluginVet.Proofs.Schema.Violation
import PluginVet.Proofs.Text.Search
import PluginVet.Proofs.Validation
import PluginVet.Proofs.Workspace
import PluginVet.Proofs.Yaml.Cursor
import PluginVet.Proofs.Yaml.Decode
import PluginVet.Proofs.Yaml.Document
import PluginVet.Proofs.Yaml.Event
import PluginVet.Proofs.Yaml.FirstContent
import PluginVet.Proofs.Yaml.Scalar
import PluginVet.Proofs.Yaml.Tag
import PluginVet.Proofs.Yaml.Token
import PluginVet.Proofs.Yaml.Tokenize
import PluginVet.Quarantine
import PluginVet.References.Audit
import PluginVet.References.Expected
import PluginVet.Registry.Basic
import PluginVet.Registry.Statement
import PluginVet.Report.Audit
import PluginVet.Report.Format
import PluginVet.Report.Registry
import PluginVet.Report.Run
import PluginVet.Schema.Basic
import PluginVet.Schema.Check
import PluginVet.Schema.Dialect
import PluginVet.Schema.Plugin
import PluginVet.Schema.Read
import PluginVet.Schema.Violation
import PluginVet.Text.Alphanumeric
import PluginVet.Text.Blank
import PluginVet.Text.Lossy
import PluginVet.Text.Quoted
import PluginVet.Text.Search
import PluginVet.Text.Unprintable
import PluginVet.Validation
import PluginVet.Workspace
import PluginVet.Yaml.Atom
import PluginVet.Yaml.Cursor
import PluginVet.Yaml.Decode
import PluginVet.Yaml.Event
import PluginVet.Yaml.Node
import PluginVet.Yaml.Printer
import PluginVet.Yaml.Record
import PluginVet.Yaml.Scalar
import PluginVet.Yaml.Token
import PluginVet.Yaml.Trouble
import PluginVet.Yaml.Value
