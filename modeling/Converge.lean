import Converge.Action
import Converge.Audit.Entry
import Converge.Audit.Record
import Converge.Backoff
import Converge.Bmp.Daemon
import Converge.Bmp.Manager
import Converge.Cache
import Converge.Command
import Converge.Config.Daemons
import Converge.Config.File
import Converge.Config.Reading
import Converge.Config.Sections
import Converge.Daemon.Basic
import Converge.Daemon.Connect
import Converge.Daemon.Loop
import Converge.Daemon.Pass
import Converge.Daemon.Scene
import Converge.Decimal
import Converge.Duration
import Converge.Error
import Converge.Event
import Converge.Executor.Batch
import Converge.Executor.Chain
import Converge.Executor.Crew
import Converge.Executor.Flight
import Converge.Executor.Grouping
import Converge.Executor.Host
import Converge.Feature.Daemon
import Converge.Feature.Manager
import Converge.Feature.Row
import Converge.Files.Atomic
import Converge.Files.Medium
import Converge.Files.Path
import Converge.Files.Tree
import Converge.HostService.ConfigControl
import Converge.HostService.Pool
import Converge.HostService.Reply
import Converge.HostService.UnitControl
import Converge.Invocation
import Converge.IoFault
import Converge.Json
import Converge.Json.Reader
import Converge.Main
import Converge.Policy
import Converge.Programs.Format
import Converge.Programs.Lookup
import Converge.Programs.Machine
import Converge.Programs.Session
import Converge.Programs.Shell.Arithmetic
import Converge.Programs.Shell.Builtin
import Converge.Programs.Shell.Reader
import Converge.Programs.Shell.Run
import Converge.Programs.Shell.Script
import Converge.Programs.Shell.State
import Converge.Programs.Shell.Token
import Converge.Programs.Tools
import Converge.Rehearsal
import Converge.Row
import Converge.Signals
import Converge.Snapshot
import Converge.SortedMap
import Converge.Store.Address
import Converge.Store.Keyspace
import Converge.Store.Memory
import Converge.Store.Queue
import Converge.Testkit.Fixture
import Converge.Testkit.LockTimeline
import Converge.Testkit.PoolTimeline
import Converge.Testkit.Recorder
import Converge.Testkit.Running
import Converge.Testkit.Scenario
import Converge.Testkit.Script
import Converge.Testkit.ScriptedPolicy
import Converge.Testkit.Transcript
import Converge.Testkit.Verify
import Converge.Text.Blank
import Converge.Text.Lossy
import Converge.Text.Quoted
import Converge.Text.Search
import Converge.Text.Unshown
import Converge.Timestamp
import Converge.Toml.Document
import Converge.Toml.Quoting
import Converge.Toml.Reader
import Converge.Toml.Scalar
import Converge.Toml.Value
import Converge.Toml.Writer
import Converge.Proofs.Audit.Moments
import Converge.Proofs.Audit.RoundTrip
import Converge.Proofs.Bmp.Restarts
import Converge.Proofs.Config.Keeping
import Converge.Proofs.Daemon.Asking
import Converge.Proofs.Daemon.Attempts
import Converge.Proofs.Daemon.Clock
import Converge.Proofs.Daemon.Containment
import Converge.Proofs.Daemon.Course
import Converge.Proofs.Daemon.Deliveries
import Converge.Proofs.Daemon.Dialling
import Converge.Proofs.Daemon.EmptyRows
import Converge.Proofs.Daemon.Entries
import Converge.Proofs.Daemon.Following
import Converge.Proofs.Daemon.FullPass
import Converge.Proofs.Daemon.Handover
import Converge.Proofs.Daemon.History
import Converge.Proofs.Daemon.LifeCycle
import Converge.Proofs.Daemon.Passing
import Converge.Proofs.Daemon.Publishing
import Converge.Proofs.Daemon.Reading
import Converge.Proofs.Daemon.Site
import Converge.Proofs.Daemon.StatusRows
import Converge.Proofs.Daemon.Trail
import Converge.Proofs.Daemon.Views
import Converge.Proofs.Daemon.Waits
import Converge.Proofs.Daemon.Writing
import Converge.Proofs.Executor.Alike
import Converge.Proofs.Executor.Chains
import Converge.Proofs.Executor.Interleaving
import Converge.Proofs.Executor.Locality
import Converge.Proofs.Executor.Locking
import Converge.Proofs.Executor.Projection
import Converge.Proofs.Executor.Reports
import Converge.Proofs.Executor.RowStrokes
import Converge.Proofs.Executor.Scheduling
import Converge.Proofs.Executor.Strokes
import Converge.Proofs.Feature.DropIns
import Converge.Proofs.Feature.Places
import Converge.Proofs.Feature.PlanOrder
import Converge.Proofs.Feature.Plans
import Converge.Proofs.Feature.Repairs
import Converge.Proofs.Feature.Scope
import Converge.Proofs.Feature.Status
import Converge.Proofs.Feature.Words
import Converge.Proofs.Files.Atomic
import Converge.Proofs.Files.Replacing
import Converge.Proofs.Files.Walk
import Converge.Proofs.Grouping.Connectivity
import Converge.Proofs.Grouping.Forest
import Converge.Proofs.Grouping.Groups
import Converge.Proofs.Grouping.Rounds
import Converge.Proofs.Grouping.Walks
import Converge.Proofs.HostService.Auditing
import Converge.Proofs.HostService.Conduct
import Converge.Proofs.HostService.Slots
import Converge.Proofs.HostService.Timeline
import Converge.Proofs.Json.Reading
import Converge.Proofs.Snapshot.Patch
import Converge.Proofs.Snapshot.Replay
import Converge.Proofs.Store.Channels
import Converge.Proofs.Store.Coalescing
import Converge.Proofs.Store.Delivery
import Converge.Proofs.Store.Listing
import Converge.Proofs.Store.Tended
import Converge.Proofs.Store.Uses
import Converge.Proofs.Testkit.InOrder
import Converge.Proofs.Text.Digits
import Converge.Proofs.Text.Encoding
import Converge.Proofs.Toml.Quotes
import Converge.Proofs.Toml.Sheets
import Converge.Proofs.Toml.Values
