import QueryClient.Bounds
import QueryClient.Bytes
import QueryClient.Calendar.Date
import QueryClient.Calendar.Moment
import QueryClient.Calendar.Reading
import QueryClient.Config.Basic
import QueryClient.Config.Duration
import QueryClient.Error.Basic
import QueryClient.Error.Detail
import QueryClient.Error.Retry
import QueryClient.Filter
import QueryClient.Hook.Basic
import QueryClient.Hook.Clip
import QueryClient.Hook.Trace
import QueryClient.Hook.Tracing
import QueryClient.Ident.Basic
import QueryClient.Ident.Columns
import QueryClient.Json.Basic
import QueryClient.Json.Exact
import QueryClient.Json.Parser
import QueryClient.Json.Printer
import QueryClient.Json.Reading
import QueryClient.Json.Redaction
import QueryClient.Json.Shown
import QueryClient.Number.Binary
import QueryClient.Number.Decimal
import QueryClient.Number.Double
import QueryClient.Number.Literal
import QueryClient.Number.Shortest
import QueryClient.Number.Width
import QueryClient.Pool.Address
import QueryClient.Pool.Build
import QueryClient.Pool.ConnectionString
import QueryClient.Pool.Settings
import QueryClient.Proofs.Calendar.Civil
import QueryClient.Proofs.Calendar.Written
import QueryClient.Proofs.Condition.Clause
import QueryClient.Proofs.Condition.Filters
import QueryClient.Proofs.Condition.Grammar
import QueryClient.Proofs.Condition.Logic
import QueryClient.Proofs.Config.Delays
import QueryClient.Proofs.Config.Stored
import QueryClient.Proofs.Error.Decisive
import QueryClient.Proofs.Error.Mentions
import QueryClient.Proofs.Error.Wrapped
import QueryClient.Proofs.Hook.Clipped
import QueryClient.Proofs.Hook.Indistinguishable
import QueryClient.Proofs.Hook.Redacted
import QueryClient.Proofs.Ident.Columns
import QueryClient.Proofs.Json.Literal
import QueryClient.Proofs.Json.Ordered
import QueryClient.Proofs.Json.Printed
import QueryClient.Proofs.Json.Unwrapped
import QueryClient.Proofs.Number.Decimals
import QueryClient.Proofs.Number.Digits
import QueryClient.Proofs.Number.Floats
import QueryClient.Proofs.Number.Rounded
import QueryClient.Proofs.Number.Sums
import QueryClient.Proofs.Query.Failure
import QueryClient.Proofs.Query.Groups
import QueryClient.Proofs.Query.Outcome
import QueryClient.Proofs.Query.Recording
import QueryClient.Proofs.Session.Abort
import QueryClient.Proofs.Session.Acts
import QueryClient.Proofs.Session.Alike
import QueryClient.Proofs.Session.Annotated
import QueryClient.Proofs.Session.Answered
import QueryClient.Proofs.Session.Attempts
import QueryClient.Proofs.Session.Bracket
import QueryClient.Proofs.Session.Calling
import QueryClient.Proofs.Session.Chronicle
import QueryClient.Proofs.Session.Connection
import QueryClient.Proofs.Session.Exec
import QueryClient.Proofs.Session.GivenUp
import QueryClient.Proofs.Session.Limits
import QueryClient.Proofs.Session.Mirrored
import QueryClient.Proofs.Session.Moves
import QueryClient.Proofs.Session.Observers
import QueryClient.Proofs.Session.Paging
import QueryClient.Proofs.Session.Reached
import QueryClient.Proofs.Session.Refused
import QueryClient.Proofs.Session.Reported
import QueryClient.Proofs.Session.Requests
import QueryClient.Proofs.Session.Restored
import QueryClient.Proofs.Session.Retries
import QueryClient.Proofs.Session.Server
import QueryClient.Proofs.Session.SessionLimit
import QueryClient.Proofs.Session.SingleRow
import QueryClient.Proofs.Session.StreamLeases
import QueryClient.Proofs.Session.StreamProtocol
import QueryClient.Proofs.Session.Streams
import QueryClient.Proofs.Session.Termination
import QueryClient.Proofs.Session.Trace
import QueryClient.Proofs.Session.Transaction
import QueryClient.Proofs.Session.TransactionCalls
import QueryClient.Proofs.Session.TransactionStops
import QueryClient.Proofs.Session.Uncounted
import QueryClient.Proofs.Session.Usage
import QueryClient.Proofs.Session.Work
import QueryClient.Proofs.Statement.Acceptance
import QueryClient.Proofs.Statement.Characters
import QueryClient.Proofs.Statement.Compiled
import QueryClient.Proofs.Statement.Conflicts
import QueryClient.Proofs.Statement.Counterpart
import QueryClient.Proofs.Statement.Estimate
import QueryClient.Proofs.Statement.Insertion
import QueryClient.Proofs.Statement.Masked
import QueryClient.Proofs.Statement.Numbering
import QueryClient.Proofs.Statement.Parts
import QueryClient.Proofs.Statement.Payload
import QueryClient.Proofs.Statement.Spacing
import QueryClient.Proofs.Statement.Token
import QueryClient.Proofs.Statement.Vocabulary
import QueryClient.Proofs.Text.Credentials
import QueryClient.Proofs.Text.Letters
import QueryClient.Proofs.Text.Pattern
import QueryClient.Proofs.Value.Json
import QueryClient.Proofs.Wire.Agreement
import QueryClient.Proofs.Wire.Bytes
import QueryClient.Proofs.Wire.Elements
import QueryClient.Proofs.Wire.Identifiers
import QueryClient.Proofs.Wire.Nulls
import QueryClient.Proofs.Wire.Numerics
import QueryClient.Proofs.Wire.ReadBack
import QueryClient.Proofs.Wire.Rendered
import QueryClient.Proofs.Wire.Scalars
import QueryClient.Proofs.Wire.Texts
import QueryClient.Proofs.Wire.Unbound
import QueryClient.Query.Basic
import QueryClient.Query.Call
import QueryClient.Query.Summary
import QueryClient.Response
import QueryClient.Session.Client
import QueryClient.Session.Connection
import QueryClient.Session.Event
import QueryClient.Session.Execute
import QueryClient.Session.Journal
import QueryClient.Session.RowStream
import QueryClient.Session.Run
import QueryClient.Session.Scenario
import QueryClient.Session.Script
import QueryClient.Session.Source
import QueryClient.Session.State
import QueryClient.Session.Transaction
import QueryClient.Statement.Compile
import QueryClient.Statement.Condition
import QueryClient.Statement.Piece
import QueryClient.Statement.Plan
import QueryClient.Statement.Rows
import QueryClient.Text.Blank
import QueryClient.Text.Hex
import QueryClient.Text.Hidden
import QueryClient.Text.Quoted
import QueryClient.Text.Ranges
import QueryClient.Text.Search
import QueryClient.Text.Secret
import QueryClient.Text.Utf8
import QueryClient.Text.Word
import QueryClient.Uuid
import QueryClient.Value
import QueryClient.Value.Tagged
import QueryClient.Wire.Catalog
import QueryClient.Wire.Decode
import QueryClient.Wire.Encode
import QueryClient.Wire.Exchange
import QueryClient.Wire.Numeric
import QueryClient.Wire.Server
import QueryClient.Wire.SqlType
