import LanguageHost.Binary
import LanguageHost.Cli.Arguments
import LanguageHost.Cli.Commands
import LanguageHost.Cli.Report
import LanguageHost.Cli.Symbols
import LanguageHost.Config.Catalogue
import LanguageHost.Config.Entry
import LanguageHost.Config.Loading
import LanguageHost.Config.Lookup
import LanguageHost.Config.Manifest
import LanguageHost.Config.User
import LanguageHost.Decimal.Binary
import LanguageHost.Decimal.Shortest
import LanguageHost.Error
import LanguageHost.Install.Backend
import LanguageHost.Install.Cargo
import LanguageHost.Install.Checkout
import LanguageHost.Install.Gem
import LanguageHost.Install.Golang
import LanguageHost.Install.Installer
import LanguageHost.Install.Npm
import LanguageHost.Install.Operation
import LanguageHost.Install.Pip
import LanguageHost.Install.Release
import LanguageHost.Json.Basic
import LanguageHost.Json.Numeral
import LanguageHost.Json.Parser
import LanguageHost.Json.Printer
import LanguageHost.Json.Record
import LanguageHost.Machine.Clock
import LanguageHost.Machine.Description
import LanguageHost.Machine.Files
import LanguageHost.Machine.Host
import LanguageHost.Machine.Process
import LanguageHost.Machine.Program
import LanguageHost.Machine.Shell.Evaluation
import LanguageHost.Machine.Shell.Expansion
import LanguageHost.Machine.Shell.Script
import LanguageHost.Machine.Shell.State
import LanguageHost.Machine.Shell.Tools
import LanguageHost.Machine.Tools
import LanguageHost.Main
import LanguageHost.Package.Basic
import LanguageHost.Package.Identifier
import LanguageHost.Package.Method
import LanguageHost.Package.Platform
import LanguageHost.Path
import LanguageHost.Percent
import LanguageHost.Protocol.Capabilities
import LanguageHost.Protocol.Frame
import LanguageHost.Protocol.Incoming
import LanguageHost.Protocol.Message
import LanguageHost.Protocol.Shape
import LanguageHost.Protocol.Types
import LanguageHost.Session.Cache
import LanguageHost.Session.Client
import LanguageHost.Session.Description
import LanguageHost.Session.Exchange
import LanguageHost.Session.Fleet
import LanguageHost.Session.Launch
import LanguageHost.Session.Link
import LanguageHost.Session.Listener
import LanguageHost.Session.Peer
import LanguageHost.Session.Query
import LanguageHost.Session.Schedule
import LanguageHost.Table
import LanguageHost.Text.Blank
import LanguageHost.Text.CharTable
import LanguageHost.Text.CombiningClass
import LanguageHost.Text.Decomposition
import LanguageHost.Text.Digit
import LanguageHost.Text.Direction
import LanguageHost.Text.Joining
import LanguageHost.Text.Literal
import LanguageHost.Text.Mark
import LanguageHost.Text.Normal
import LanguageHost.Text.Replace
import LanguageHost.Text.Unassigned
import LanguageHost.Text.Utf8
import LanguageHost.Toml.Document
import LanguageHost.Toml.Scan
import LanguageHost.Url.Authority
import LanguageHost.Url.Basic
import LanguageHost.Url.Domain
import LanguageHost.Url.DomainMapping
import LanguageHost.Url.Host
import LanguageHost.Url.Parser
import LanguageHost.Url.Punycode
import LanguageHost.Url.Segments
import LanguageHost.Proofs.Protocol.Chunks
import LanguageHost.Proofs.Text.Blank
import LanguageHost.Proofs.Text.Utf8
import LanguageHost.Proofs.Protocol.Frames
import LanguageHost.Proofs.Files.Slot
import LanguageHost.Proofs.Install.Backends
import LanguageHost.Proofs.Install.Failed
import LanguageHost.Proofs.Install.Interrupted
import LanguageHost.Proofs.Package.Reading
import LanguageHost.Proofs.Package.Spelling
import LanguageHost.Proofs.Percent
import LanguageHost.Proofs.Package.Canonical
import LanguageHost.Proofs.Session.Acts
import LanguageHost.Proofs.Session.Asking
import LanguageHost.Proofs.Session.Chronicle
import LanguageHost.Proofs.Session.Routing
import LanguageHost.Proofs.Session.Responses
import LanguageHost.Proofs.Session.Caching
import LanguageHost.Proofs.Session.Freshness
import LanguageHost.Proofs.Fleet.Links
import LanguageHost.Proofs.Fleet.Steps
import LanguageHost.Proofs.Fleet.Traffic
import LanguageHost.Proofs.Registry.Turns
import LanguageHost.Proofs.Registry.Overrides
import LanguageHost.Proofs.Registry.Lookup
import LanguageHost.Proofs.Install.Cancelled
import LanguageHost.Proofs.Files.Clean
import LanguageHost.Proofs.Install.Pinned
import LanguageHost.Proofs.Session.Recency
import LanguageHost.Proofs.Json.Compact
import LanguageHost.Proofs.Protocol.Messages
import LanguageHost.Proofs.Session.Listening
import LanguageHost.Proofs.Session.Documents
import LanguageHost.Proofs.Package.Identity
import LanguageHost.Proofs.Session.Aftermath
import LanguageHost.Proofs.Session.Shutdown
import LanguageHost.Proofs.Session.Settings
import LanguageHost.Proofs.Session.Handshake
import LanguageHost.Proofs.Session.Transparency
import LanguageHost.Proofs.Session.Memory
import LanguageHost.Proofs.Session.Standing
import LanguageHost.Proofs.Fleet.Exits
import LanguageHost.Proofs.Fleet.Attending
import LanguageHost.Proofs.Fleet.Accounts
import LanguageHost.Proofs.Fleet.Attended
import LanguageHost.Proofs.Fleet.Crashes
import LanguageHost.Proofs.Fleet.Failures
import LanguageHost.Proofs.Fleet.Progress
import LanguageHost.Proofs.Fleet.Stopping
import LanguageHost.Proofs.Cli.Symbols
import LanguageHost.Proofs.Cli.Watching
import LanguageHost.Proofs.Install.Reported
import LanguageHost.Proofs.Install.Parts
import LanguageHost.Proofs.Install.Workshop
import LanguageHost.Proofs.Install.Sole
import LanguageHost.Proofs.Install.Channel
import LanguageHost.Proofs.Install.Replayed
import LanguageHost.Proofs.Install.Options
import LanguageHost.Proofs.Package.Query
import LanguageHost.Proofs.Package.Grammar
import LanguageHost.Proofs.Package.Template
import LanguageHost.Proofs.Package.Resolution
import LanguageHost.Proofs.Install.Misfits
import LanguageHost.Proofs.Url.Segments
import LanguageHost.Proofs.Url.Reading
import LanguageHost.Proofs.Package.ReleaseUrl
import LanguageHost.Proofs.Files.Leaf
import LanguageHost.Proofs.Install.Delivered
import LanguageHost.Proofs.Program.Reading
import LanguageHost.Proofs.Program.Output
import LanguageHost.Proofs.Install.DefaultBranch
import LanguageHost.Proofs.Install.Snapshots
import LanguageHost.Proofs.Install.Unpinned
import LanguageHost.Proofs.Install.Sources
import LanguageHost.Proofs.Install.ModuleFile
