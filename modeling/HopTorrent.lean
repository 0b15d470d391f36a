import HopTorrent.Address
import HopTorrent.Address.Ip
import HopTorrent.Binary64
import HopTorrent.Binary64.Shortest
import HopTorrent.Bytes
import HopTorrent.Calendar
import HopTorrent.Chain
import HopTorrent.Chain.Dial
import HopTorrent.Chain.Dialer
import HopTorrent.Chain.Policy
import HopTorrent.Chain.Probe
import HopTorrent.Chain.Seed
import HopTorrent.Chain.Shuffle
import HopTorrent.CommandLine
import HopTorrent.Configuration
import HopTorrent.Configuration.Load
import HopTorrent.Engine
import HopTorrent.Engine.Options
import HopTorrent.Engine.Scripted
import HopTorrent.Error
import HopTorrent.Exchange
import HopTorrent.Http.Api
import HopTorrent.Http.Body
import HopTorrent.Http.Headers
import HopTorrent.Http.MediaType
import HopTorrent.Http.Message
import HopTorrent.Http.Routes
import HopTorrent.Http.Service
import HopTorrent.InfoHash
import HopTorrent.Json
import HopTorrent.Json.Reader
import HopTorrent.Limiter
import HopTorrent.Log
import HopTorrent.Log.Filter
import HopTorrent.Main
import HopTorrent.Network
import HopTorrent.Proofs.Address
import HopTorrent.Proofs.Address.Ip
import HopTorrent.Proofs.Address.Spelling
import HopTorrent.Proofs.Binary64
import HopTorrent.Proofs.Chain.Admission
import HopTorrent.Proofs.Chain.Cancellation
import HopTorrent.Proofs.Chain.Listed
import HopTorrent.Proofs.Chain.Probe
import HopTorrent.Proofs.Chain.Retry
import HopTorrent.Proofs.Chain.Route
import HopTorrent.Proofs.Chain.Shuffle
import HopTorrent.Proofs.Chain.Spacing
import HopTorrent.Proofs.Configuration
import HopTorrent.Proofs.Configuration.Load
import HopTorrent.Proofs.Engine.History
import HopTorrent.Proofs.Engine.Registry
import HopTorrent.Proofs.Engine.Scripted
import HopTorrent.Proofs.Error
import HopTorrent.Proofs.Exchange
import HopTorrent.Proofs.Exchange.Meeting
import HopTorrent.Proofs.Exchange.Offered
import HopTorrent.Proofs.Http.Allowance
import HopTorrent.Proofs.Http.Answers
import HopTorrent.Proofs.Http.Hardening
import HopTorrent.Proofs.Http.Mirror
import HopTorrent.Proofs.Http.Overtaken
import HopTorrent.Proofs.Http.Preferences
import HopTorrent.Proofs.Http.Sections
import HopTorrent.Proofs.Http.Templates
import HopTorrent.Proofs.Http.Throttling
import HopTorrent.Proofs.Http.Traffic
import HopTorrent.Proofs.InfoHash
import HopTorrent.Proofs.InfoHash.Digits
import HopTorrent.Proofs.Json.Records
import HopTorrent.Proofs.Json.Values
import HopTorrent.Proofs.Limiter.Routes
import HopTorrent.Proofs.Limiter.Spans
import HopTorrent.Proofs.Limiter.Stretch
import HopTorrent.Proofs.Secrecy.Alike
import HopTorrent.Proofs.Secrecy.Dial
import HopTorrent.Proofs.Secrecy.Hop
import HopTorrent.Proofs.Secrecy.Logs
import HopTorrent.Proofs.Secrecy.Overlapping
import HopTorrent.Proofs.Secrecy.Responses
import HopTorrent.Proofs.Secrecy.Sessions
import HopTorrent.Proofs.Secrecy.Shutdown
import HopTorrent.Proofs.Session.Accounting
import HopTorrent.Proofs.Session.Book
import HopTorrent.Proofs.Session.Clock
import HopTorrent.Proofs.Session.Filed
import HopTorrent.Proofs.Session.Finality
import HopTorrent.Proofs.Session.Ledger
import HopTorrent.Proofs.Session.Lifecycle
import HopTorrent.Proofs.Session.Listing
import HopTorrent.Proofs.Session.Punctuality
import HopTorrent.Proofs.Session.Sections
import HopTorrent.Proofs.Session.Sharing
import HopTorrent.Proofs.Session.Together
import HopTorrent.Proofs.Settings
import HopTorrent.Proofs.Socks.Answer
import HopTorrent.Proofs.Socks.Handshake
import HopTorrent.Proofs.Socks.Ingress.Asks
import HopTorrent.Proofs.Socks.Ingress.Meeting
import HopTorrent.Proofs.Socks.Ingress.Serve
import HopTorrent.Proofs.Socks.Ingress.Target
import HopTorrent.Proofs.Socks.Request
import HopTorrent.Proofs.Storage.History
import HopTorrent.Proofs.Storage.Reopening
import HopTorrent.Proofs.Storage.Rows
import HopTorrent.Proofs.Stream.Carries
import HopTorrent.Proofs.Stream.Relay
import HopTorrent.Proofs.Text.Blank
import HopTorrent.Proofs.Text.Numeral
import HopTorrent.Proofs.Timeline
import HopTorrent.Proofs.Transfer.Progress
import HopTorrent.Proofs.Transfer.Rates
import HopTorrent.Redacted
import HopTorrent.Server
import HopTorrent.Session
import HopTorrent.Session.Concurrent
import HopTorrent.Session.Manager
import HopTorrent.Settings
import HopTorrent.Socks.Client
import HopTorrent.Socks.Credentials
import HopTorrent.Socks.Frame
import HopTorrent.Socks.Ingress
import HopTorrent.Socks.Message
import HopTorrent.Storage.Database
import HopTorrent.Storage.Location
import HopTorrent.Storage.Record
import HopTorrent.Storage.Tree
import HopTorrent.Stream
import HopTorrent.Stream.Relay
import HopTorrent.Table
import HopTorrent.Text.Blank
import HopTorrent.Text.Cut
import HopTorrent.Text.Hex
import HopTorrent.Text.Likeness
import HopTorrent.Text.Natural
import HopTorrent.Text.Printable
import HopTorrent.Text.Quoted
import HopTorrent.Timeline
import HopTorrent.Transfer.Progress
import HopTorrent.Transfer.Rates
import HopTorrent.Transfer.Snapshot
import HopTorrent.Transfer.Status
