import IssueTracker.Bead.Basic
import IssueTracker.Bead.Comment
import IssueTracker.Bead.Dependency
import IssueTracker.Bead.Labels
import IssueTracker.Bead.Request
import IssueTracker.Bus.Basic
import IssueTracker.Bus.Endpoint
import IssueTracker.Bus.Publish
import IssueTracker.Bus.Target
import IssueTracker.Dispatch.Basic
import IssueTracker.Dispatch.Sink
import IssueTracker.Double.Basic
import IssueTracker.Double.Shortest
import IssueTracker.Failure
import IssueTracker.Http.Form
import IssueTracker.Http.MediaType
import IssueTracker.Http.Request
import IssueTracker.Hub.Basic
import IssueTracker.Hub.Event
import IssueTracker.Hub.History
import IssueTracker.Instant.Basic
import IssueTracker.Instant.Rfc3339
import IssueTracker.Json.Doc
import IssueTracker.Json.Numeral
import IssueTracker.Json.Parse
import IssueTracker.Json.Read
import IssueTracker.Json.Text
import IssueTracker.Json.Value
import IssueTracker.Ledger.Basic
import IssueTracker.Ledger.Sink
import IssueTracker.Proofs.Graph.Reach
import IssueTracker.Proofs.Graph.Exploration
import IssueTracker.Proofs.Hub.Delivery
import IssueTracker.Proofs.Hub.History
import IssueTracker.Proofs.Hub.Mailbox
import IssueTracker.Proofs.Hub.Run
import IssueTracker.Proofs.Hub.Subscription
import IssueTracker.Proofs.Json.Reading
import IssueTracker.Proofs.Json.Written
import IssueTracker.Proofs.Service.Feed
import IssueTracker.Proofs.Service.Reconnect
import IssueTracker.Proofs.Service.Streaming
import IssueTracker.Proofs.Store.Atomicity
import IssueTracker.Proofs.Store.Effect
import IssueTracker.Proofs.Store.Identity
import IssueTracker.Proofs.Store.Integrity
import IssueTracker.Proofs.Store.Progress
import IssueTracker.Proofs.Stream.Chunks
import IssueTracker.Proofs.Stream.RoundTrip
import IssueTracker.Proofs.Text.Utf8
import IssueTracker.Service.Access
import IssueTracker.Service.Action
import IssueTracker.Service.Answer
import IssueTracker.Service.Connection
import IssueTracker.Service.Route
import IssueTracker.Service.Server
import IssueTracker.Service.Session
import IssueTracker.Settings.Basic
import IssueTracker.Settings.Layers
import IssueTracker.Settings.Load
import IssueTracker.Settings.Value
import IssueTracker.Store.Basic
import IssueTracker.Store.Change
import IssueTracker.Store.Graph
import IssueTracker.Store.Listing
import IssueTracker.Store.Rules
import IssueTracker.Stream.Decoder
import IssueTracker.Stream.Frame
import IssueTracker.Text.Blank
import IssueTracker.Text.Decimal
import IssueTracker.Text.Percent
import IssueTracker.Text.Split
import IssueTracker.Text.Utf8
import IssueTracker.Topic.Basic
import IssueTracker.Topic.Filter
import IssueTracker.Proofs.Instant.Calendar
import IssueTracker.Proofs.Instant.RoundTrip
import IssueTracker.Proofs.Bead.RoundTrip
import IssueTracker.Proofs.Store.Contents
import IssueTracker.Proofs.Store.Replica
import IssueTracker.Proofs.Service.Asking
import IssueTracker.Proofs.Service.Publication
import IssueTracker.Proofs.Service.EventLog
import IssueTracker.Proofs.Dispatch.Independence
import IssueTracker.Proofs.Stream.Blocks
import IssueTracker.Proofs.Ledger.Pages
import IssueTracker.Proofs.Service.Paging
import IssueTracker.Proofs.Service.Authorization
import IssueTracker.Proofs.Text.Trim
import IssueTracker.Proofs.Text.Numeral
import IssueTracker.Proofs.Store.WellFormed
import IssueTracker.Proofs.Store.Chronology
import IssueTracker.Proofs.Store.Permanence
import IssueTracker.Proofs.Store.Seniority
import IssueTracker.Proofs.Hub.Retention
import IssueTracker.Proofs.Json.Unbroken
import IssueTracker.Proofs.Stream.Fidelity
import IssueTracker.Proofs.Service.Unread
import IssueTracker.Proofs.Service.Broadcasting
import IssueTracker.Proofs.Service.Wire
import IssueTracker.Proofs.Topic.Grammar
import IssueTracker.Proofs.Stream.Recovery
import IssueTracker.Proofs.Hub.Register
import IssueTracker.Proofs.Service.Bodies
import IssueTracker.Proofs.Store.Linking
import IssueTracker.Proofs.Store.Readiness
import IssueTracker.Proofs.Store.Listing
import IssueTracker.Proofs.Store.Patching
import IssueTracker.Proofs.Hub.Circle
import IssueTracker.Proofs.Ledger.Recording
import IssueTracker.Proofs.Store.Footprint
import IssueTracker.Proofs.Store.Details
import IssueTracker.Proofs.Topic.FilterText
import IssueTracker.Proofs.Stream.LineEnds
import IssueTracker.Proofs.Store.Labelling
import IssueTracker.Proofs.Http.Header
