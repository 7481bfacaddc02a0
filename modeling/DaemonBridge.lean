import DaemonBridge.Binary64
import DaemonBridge.Decimal.Shortest
import DaemonBridge.Json.Value
import DaemonBridge.Json.Write
import DaemonBridge.Text.Display
import DaemonBridge.Json.Fault
import DaemonBridge.Json.Scan
import DaemonBridge.Json.Read
import DaemonBridge.Json.Shape
import DaemonBridge.Json.Shape.Read
import DaemonBridge.Kind
import DaemonBridge.ServiceMode
import DaemonBridge.Wire
import DaemonBridge.Envelope
import DaemonBridge.Bytes
import DaemonBridge.Text.Utf8
import DaemonBridge.Transport.Frame
import DaemonBridge.Transport.Error
import DaemonBridge.Transport.Frame.Decoder
import DaemonBridge.Diagnostic
import DaemonBridge.Registry
import DaemonBridge.Registry.Script
import DaemonBridge.Transport.Bus
import DaemonBridge.Transport.Bus.Script
import DaemonBridge.Text.Blank
import DaemonBridge.Roster.Record
import DaemonBridge.Roster.Match
import DaemonBridge.Roster
import DaemonBridge.Roster.Script
import DaemonBridge.Time.Duration
import DaemonBridge.Net.IpAddress
import DaemonBridge.Config
import DaemonBridge.Config.Script
import DaemonBridge.Mode.State
import DaemonBridge.Command.Error
import DaemonBridge.Mode.Error
import DaemonBridge.Mode.Snapshot
import DaemonBridge.Console.Report
import DaemonBridge.Args.Spec
import DaemonBridge.Args.Similar
import DaemonBridge.Args.Help
import DaemonBridge.Args.Error
import DaemonBridge.Args.Parse
import DaemonBridge.Console.Cli
import DaemonBridge.Envelope.View
import DaemonBridge.Text.Scrub
import DaemonBridge.Session.State
import DaemonBridge.Session.Mode
import DaemonBridge.Session.Publish
import DaemonBridge.Session.Tasks
import DaemonBridge.Session.Script
import DaemonBridge.Console.Error
import DaemonBridge.Transport.Link
import DaemonBridge.Main
import DaemonBridge.Proofs.Effect
import DaemonBridge.Proofs.Registry.Basic
import DaemonBridge.Proofs.Registry.Conservation
import DaemonBridge.Proofs.Session.Effects
import DaemonBridge.Proofs.Session.WaitKeys
import DaemonBridge.Proofs.Session.Waits
import DaemonBridge.Proofs.Session.Delivery
import DaemonBridge.Proofs.Session.Running
import DaemonBridge.Proofs.Session.Reachable
import DaemonBridge.Proofs.Session.LeakFreedom
import DaemonBridge.Proofs.Session.Coordinator
import DaemonBridge.Proofs.Session.Indicator
import DaemonBridge.Proofs.WireNames
import DaemonBridge.Proofs.Session.Resolution
import DaemonBridge.Proofs.Session.Correlation
import DaemonBridge.Proofs.Session.Generation
import DaemonBridge.Proofs.Session.LastRequest
import DaemonBridge.Proofs.Session.Reports
import DaemonBridge.Proofs.Session.SwitchFailure
import DaemonBridge.Proofs.Text.Utf8
import DaemonBridge.Proofs.Transport.FrameEnd
import DaemonBridge.Proofs.Transport.Steps
import DaemonBridge.Proofs.Transport.ReadBack
import DaemonBridge.Proofs.Transport.Segmentation
import DaemonBridge.Proofs.Transport.Resume
import DaemonBridge.Proofs.Json.Tokens
import DaemonBridge.Proofs.Json.Steps
import DaemonBridge.Proofs.Json.Documents
import DaemonBridge.Proofs.Json.Compact
import DaemonBridge.Proofs.Roster.Keys
import DaemonBridge.Proofs.Roster.Reconcile
import DaemonBridge.Proofs.Roster.Lifetime
import DaemonBridge.Proofs.Roster.Changes
import DaemonBridge.Proofs.Transport.Reentry
import DaemonBridge.Proofs.Session.SharedKeys
import DaemonBridge.Proofs.Session.SwitchKeys
import DaemonBridge.Proofs.Json.Records
import DaemonBridge.Proofs.Envelope.RoundTrip
import DaemonBridge.Proofs.Config.FrameLimit
