import Provisioning.Text.Blank
import Provisioning.Text.Layout
import Provisioning.Text.Debug
import Provisioning.Json.Value
import Provisioning.Number.Binary64
import Provisioning.Number.Shortest
import Provisioning.Data.Shape
import Provisioning.Json.Reader
import Provisioning.Os.Error
import Provisioning.Store.Error
import Provisioning.Error
import Provisioning.Name
import Provisioning.Manifest
import Provisioning.Process.Output
import Provisioning.Host.Status
import Provisioning.Host.Listing
import Provisioning.Link.Strategy
import Provisioning.Text.Sort
import Provisioning.Plan
import Provisioning.Graph.Basic
import Provisioning.Graph.Resolve
import Provisioning.FileTree.Path
import Provisioning.FileTree.Basic
import Provisioning.Text.Utf8
import Provisioning.Shell.Syntax
import Provisioning.Shell.Token
import Provisioning.Shell.Grammar
import Provisioning.Shell.Reader
import Provisioning.Shell.Pattern
import Provisioning.Shell.State
import Provisioning.Shell.Utility.Basic
import Provisioning.Shell.Regex
import Provisioning.Shell.Utility.Files
import Provisioning.Shell.Utility.Text
import Provisioning.Shell.Utility.Format
import Provisioning.Shell.Utility.Awk
import Provisioning.Shell.Expand
import Provisioning.Shell.Builtin
import Provisioning.Shell.Arith
import Provisioning.Shell.Run
import Provisioning.Host.Memory
import Provisioning.Machine
import Provisioning.Catalog.Info
import Provisioning.Catalog.Basic
import Provisioning.Marker
import Provisioning.Link.Linker
import Provisioning.Host.Command
import Provisioning.Host.Application
import Provisioning.Install
import Provisioning.Seed
import Provisioning.Inventory
import Provisioning.Pipeline
import Provisioning.FileTree.Listing
import Provisioning.Encode
import Provisioning.Config.Kitchen
import Provisioning.Config.Toml.Syntax
import Provisioning.Config.Toml.Document
import Provisioning.Config.Toml.Writer
import Provisioning.Config.Yaml.Token
import Provisioning.Config.Yaml.Event
import Provisioning.Config.Yaml.Document
import Provisioning.Config.Yaml.Writer
import Provisioning.Config.Store
import Provisioning.Text.Style
import Provisioning.Text.Similarity
import Provisioning.Cli.Spec
import Provisioning.Cli.Usage
import Provisioning.Cli.Help
import Provisioning.Cli.Failure
import Provisioning.Cli.Parse
import Provisioning.Cli.Completion.Bash
import Provisioning.Cli.Completion.Zsh
import Provisioning.Cli.Completion.Fish
import Provisioning.Cli.Completion.Elvish
import Provisioning.Cli.Completion.PowerShell
import Provisioning.Cli.Completion.Shell
import Provisioning.Kitchen.Interface
import Provisioning.Kitchen.Session
import Provisioning.Kitchen.Commands
import Provisioning.Kitchen.Run
import Provisioning.Sandbox.Kitchen
import Provisioning.Sandbox.Fixture
import Provisioning.Proofs.Plan
import Provisioning.Proofs.Graph.PostOrder
import Provisioning.Proofs.Graph.Resolve
import Provisioning.Proofs.Graph.Calls
import Provisioning.Proofs.Graph.Requests
import Provisioning.Proofs.Install
import Provisioning.Proofs.Runner
import Provisioning.Proofs.Catalog
import Provisioning.Proofs.Pipeline
import Provisioning.Proofs.Report
import Provisioning.Proofs.Seeding
import Provisioning.Proofs.Marker
import Provisioning.Proofs.Json
import Provisioning.Proofs.Manifest
import Provisioning.Proofs.Link
import Provisioning.Proofs.FileTree.Resolution
import Provisioning.Proofs.FileTree.Frame
import Provisioning.Proofs.MarkerWrites
import Provisioning.Proofs.MarkerLaws
import Provisioning.Proofs.MemoryHost
import Provisioning.Proofs.Batch
import Provisioning.Proofs.Confinement
import Provisioning.Proofs.AtomicWrite
import Provisioning.Proofs.ConfigRoundTrip
import Provisioning.Proofs.PlanOrder
import Provisioning.Proofs.Unlink
import Provisioning.Proofs.Refresh
import Provisioning.Proofs.SortedNames
import Provisioning.Proofs.Inventory
import Provisioning.Proofs.Discovery
import Provisioning.Proofs.Listing
