import GameRelay.Connection.Basic
import GameRelay.Connection.Outbox
import GameRelay.Connection.Writer
import GameRelay.ConnectionId
import GameRelay.Decimal.Binary64
import GameRelay.Decimal.Digits
import GameRelay.Decimal.Shortest
import GameRelay.Json.Lexer
import GameRelay.Json.Numeral
import GameRelay.Json.Printer
import GameRelay.Json.Reader
import GameRelay.Json.Token
import GameRelay.Json.Value
import GameRelay.Log.Level
import GameRelay.Log.Setup
import GameRelay.Main
import GameRelay.Message.Frame
import GameRelay.Message.Message
import GameRelay.Message.Request
import GameRelay.Relay.Basic
import GameRelay.Relay.Delivery
import GameRelay.Relay.Dispatch
import GameRelay.Relay.Event
import GameRelay.Relay.Lifecycle
import GameRelay.Relay.Writing
import GameRelay.Room
import GameRelay.RoomCode
import GameRelay.Server.Client
import GameRelay.Server.Http
import GameRelay.Server.Path
import GameRelay.Server.Session
import GameRelay.Settings
import GameRelay.Startup
import GameRelay.Table
import GameRelay.Text.Blank
import GameRelay.Text.DecimalDigit
import GameRelay.Text.Hex
import GameRelay.Text.Integer
import GameRelay.Text.Printable
import GameRelay.Text.Quoted
import GameRelay.Proofs.Relay.Effects
import GameRelay.Proofs.Relay.Requests
import GameRelay.Proofs.Relay.Calls
import GameRelay.Proofs.Relay.Seating
import GameRelay.Proofs.Relay.Turns
import GameRelay.Proofs.Relay.Shifts
import GameRelay.Proofs.Relay.Sessions
import GameRelay.Proofs.Relay.Traffic
import GameRelay.Proofs.Relay.Departures
import GameRelay.Proofs.Relay.Isolation
import GameRelay.Proofs.Relay.Conversation
import GameRelay.Proofs.Relay.Reception
import GameRelay.Proofs.Decimal
import GameRelay.Proofs.Json.Numeral
import GameRelay.Proofs.Json.Lexer
import GameRelay.Proofs.Json.Reader
import GameRelay.Proofs.Relay.Payloads
import GameRelay.Proofs.Relay.Careers
import GameRelay.Proofs.Relay.Invitations
import GameRelay.Proofs.Json.Standard
import GameRelay.Proofs.Relay.Wire
import GameRelay.Proofs.Relay.Reactions
import GameRelay.Proofs.Relay.Commuting
import GameRelay.Proofs.Relay.Faults
import GameRelay.Proofs.Relay.Hosts
import GameRelay.Proofs.Relay.Custody
import GameRelay.Proofs.Relay.Flushing
import GameRelay.Proofs.Writer
import GameRelay.Proofs.Relay.Writing
import GameRelay.Proofs.Relay.Differences
import GameRelay.Proofs.Relay.Routing
import GameRelay.Proofs.Relay.Endings
import GameRelay.Proofs.Relay.Answers
import GameRelay.Proofs.Relay.Rosters
import GameRelay.Proofs.Relay.FreshCodes
import GameRelay.Proofs.Relay.Regeneration
import GameRelay.Proofs.Decoding
import GameRelay.Proofs.Text.Line
import GameRelay.Proofs.Text.Quoted
import GameRelay.Proofs.Text.Utf8
import GameRelay.Proofs.Json.Bytes
import GameRelay.Proofs.Relay.Journal
import GameRelay.Proofs.Relay.Encodings
import GameRelay.Proofs.Relay.Provenance
import GameRelay.Proofs.Relay.Records
import GameRelay.Proofs.Server
