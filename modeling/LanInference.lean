import LanInference.Binary.Magnitude
import LanInference.Binary.Shortest
import LanInference.Chat
import LanInference.Codec
import LanInference.CommandLine.Arguments
import LanInference.CommandLine.Commands
import LanInference.CommandLine.Form
import LanInference.CommandLine.Outcome
import LanInference.Discovery.Endpoint
import LanInference.Discovery.Engine
import LanInference.Discovery.Host
import LanInference.Discovery.Instances
import LanInference.Discovery.Probe
import LanInference.Discovery.Subscription
import LanInference.Discovery.Validator
import LanInference.Discovery.World
import LanInference.Event
import LanInference.Json.Node
import LanInference.Json.Record
import LanInference.Json.Token
import LanInference.Json.Value
import LanInference.Json.Write
import LanInference.Main
import LanInference.Net.Address
import LanInference.Net.DomainName
import LanInference.Net.Http
import LanInference.Net.NameMapping
import LanInference.Net.Punycode
import LanInference.Net.Url
import LanInference.OrderedMap
import LanInference.Power.Level
import LanInference.Power.Policy
import LanInference.Power.Provider
import LanInference.Power.State
import LanInference.Power.Watch
import LanInference.Recovery.Directory
import LanInference.Recovery.FileStore
import LanInference.Recovery.Store
import LanInference.SessionId
import LanInference.Settings.Basic
import LanInference.Settings.Toml
import LanInference.Stream.Answer
import LanInference.Stream.Conversation
import LanInference.Stream.Ingest
import LanInference.Stream.Registry
import LanInference.Stream.Request
import LanInference.Stream.Session
import LanInference.Stream.System
import LanInference.Stream.Task
import LanInference.Text.CodeTable
import LanInference.Text.Composition
import LanInference.Text.Digits
import LanInference.Text.Direction
import LanInference.Text.Joining
import LanInference.Text.Mark
import LanInference.Text.Percent
import LanInference.Text.Trim
import LanInference.Text.Utf8
import LanInference.Wire.Adapter
import LanInference.Wire.LineBuffer
import LanInference.Wire.Ndjson
import LanInference.Wire.Sse
import LanInference.Proofs.Events
import LanInference.Proofs.Wire.Adapter
import LanInference.Proofs.Json.Tokens
import LanInference.Proofs.Text.Utf8
import LanInference.Proofs.Json.Trees
import LanInference.Proofs.Json.Grammar
import LanInference.Proofs.Json.Records
import LanInference.Proofs.Json.Members
import LanInference.Proofs.Wire.Payloads
import LanInference.Proofs.Wire.RoundTrip
import LanInference.Proofs.Recovery.Reliable
import LanInference.Proofs.Stream.Lane
import LanInference.Proofs.Stream.Mirror
import LanInference.Proofs.Stream.Recoverability
import LanInference.Proofs.Stream.Answers
import LanInference.Proofs.Stream.Ingestion
import LanInference.Proofs.Stream.Delivery
import LanInference.Proofs.Stream.WriteAhead
import LanInference.Proofs.Discovery.Turn
import LanInference.Proofs.Discovery.Change
import LanInference.Proofs.Discovery.Lifecycle
import LanInference.Proofs.Discovery.Bookkeeping
import LanInference.Proofs.Discovery.LateResults
import LanInference.Proofs.Discovery.Subscriptions
import LanInference.Proofs.Discovery.Budget
import LanInference.Proofs.Discovery.Isolation
import LanInference.Proofs.Discovery.Instances
import LanInference.Proofs.Discovery.Announcements
import LanInference.Proofs.Recovery.Files
import LanInference.Proofs.Recovery.Calls
import LanInference.Proofs.Recovery.Writes
import LanInference.Proofs.Recovery.Refinement
import LanInference.Proofs.Discovery.Reordering
import LanInference.Proofs.Discovery.Spacing
import LanInference.Proofs.Recovery.Foreign
import LanInference.Proofs.Stream.Registration
import LanInference.Proofs.Stream.Outside
import LanInference.Proofs.Stream.Alone
import LanInference.Proofs.Recovery.Sessions
import LanInference.Proofs.CommandLine.Chat
import LanInference.Proofs.SessionId
import LanInference.Proofs.Codecs
import LanInference.Proofs.Recovery.Recording
import LanInference.Proofs.Recovery.Failing
import LanInference.Proofs.Stream.Shared
import LanInference.Proofs.Stream.LookUp
import LanInference.Proofs.Stream.Replacement
import LanInference.Proofs.Wire.Decoding
import LanInference.Proofs.CommandLine.Recover
import LanInference.Proofs.CommandLine.Shares
import LanInference.Proofs.Discovery.Freshness
import LanInference.Proofs.Text.Order
import LanInference.Proofs.Net.Address
import LanInference.Proofs.Net.Preference
import LanInference.Proofs.Discovery.Keys
import LanInference.Proofs.Discovery.Holdings
import LanInference.Proofs.Discovery.ChangeLog
import LanInference.Proofs.Discovery.InstanceNames
import LanInference.Proofs.Json.Soundness
import LanInference.Proofs.Json.Values
import LanInference.Proofs.Discovery.Probing
import LanInference.Proofs.Discovery.Rearming
import LanInference.Proofs.Discovery.Retrying
import LanInference.Proofs.Power.Level
import LanInference.Proofs.Power.Setters
import LanInference.Proofs.Power.Watching
import LanInference.Proofs.Wire.Framing
import LanInference.Proofs.Recovery.Naming
import LanInference.Proofs.Settings.Precedence
import LanInference.Proofs.Net.DomainName
import LanInference.Proofs.Net.Host
import LanInference.Proofs.Net.Url
import LanInference.Proofs.CommandLine.Posting
import LanInference.Proofs.Text.Parts
import LanInference.Proofs.Text.Case
import LanInference.Proofs.Net.Punycode
