import BurnAfterRead.BackgroundTask
import BurnAfterRead.CommandLine.Completion
import BurnAfterRead.CommandLine.Help
import BurnAfterRead.CommandLine.Invocation
import BurnAfterRead.CommandLine.Log
import BurnAfterRead.CommandLine.Parameter
import BurnAfterRead.CommandLine.Program
import BurnAfterRead.Connection.Address
import BurnAfterRead.Connection.DatabaseFile
import BurnAfterRead.Connection.Hosted
import BurnAfterRead.Connection.Network
import BurnAfterRead.Connection.SqlServer
import BurnAfterRead.Connection.Target
import BurnAfterRead.Connection.Uri
import BurnAfterRead.Crypto.Aes
import BurnAfterRead.Crypto.Gcm
import BurnAfterRead.Crypto.Generator
import BurnAfterRead.Crypto.Md5
import BurnAfterRead.Crypto.Token
import BurnAfterRead.Decimal.Double
import BurnAfterRead.Decimal.Shortest
import BurnAfterRead.Dialogue
import BurnAfterRead.Failure
import BurnAfterRead.Http.Api
import BurnAfterRead.Http.ClientAddress
import BurnAfterRead.Http.Draws
import BurnAfterRead.Http.IpAddress
import BurnAfterRead.Http.MediaType
import BurnAfterRead.Http.Request
import BurnAfterRead.Http.Response
import BurnAfterRead.Http.Route
import BurnAfterRead.Http.SecretRequest
import BurnAfterRead.Http.Site
import BurnAfterRead.Id.ObjectId
import BurnAfterRead.Id.Uuid
import BurnAfterRead.Json.Reader
import BurnAfterRead.Json.Writer
import BurnAfterRead.Limiter.Arithmetic
import BurnAfterRead.Limiter.Basic
import BurnAfterRead.Main
import BurnAfterRead.Relational.Dialect
import BurnAfterRead.Relational.Reserved
import BurnAfterRead.Relational.Row
import BurnAfterRead.Relational.ServerTable
import BurnAfterRead.Relational.Session
import BurnAfterRead.Relational.TextTable
import BurnAfterRead.Secret.Basic
import BurnAfterRead.Secret.Service
import BurnAfterRead.Settings.Basic
import BurnAfterRead.Settings.Driver
import BurnAfterRead.Settings.Fields
import BurnAfterRead.Settings.File
import BurnAfterRead.Settings.Shown
import BurnAfterRead.Startup
import BurnAfterRead.Store.Command
import BurnAfterRead.Store.Document
import BurnAfterRead.Store.KeyValue
import BurnAfterRead.Store.Memory
import BurnAfterRead.Store.Payload
import BurnAfterRead.Store.Record
import BurnAfterRead.Store.Timeout
import BurnAfterRead.Text.Base64
import BurnAfterRead.Text.Blank
import BurnAfterRead.Text.Diagnostic
import BurnAfterRead.Text.Hex
import BurnAfterRead.Text.Numeral
import BurnAfterRead.Text.Percent
import BurnAfterRead.Text.Split
import BurnAfterRead.Text.Table
import BurnAfterRead.Text.Unprintable
import BurnAfterRead.Text.Width
import BurnAfterRead.Time.Calendar
import BurnAfterRead.Time.Duration
import BurnAfterRead.Time.Instant
import BurnAfterRead.Time.Timestamp
import BurnAfterRead.Toml.Document
import BurnAfterRead.Toml.Node
import BurnAfterRead.Toml.Scalar
import BurnAfterRead.Proofs.Crypto.Token
import BurnAfterRead.Proofs.Crypto.Aes
import BurnAfterRead.Proofs.Crypto.Sealing
import BurnAfterRead.Proofs.Dialogue.Path
import BurnAfterRead.Proofs.Service.Operation
import BurnAfterRead.Proofs.Concurrency.Scene
import BurnAfterRead.Proofs.Concurrency.Drafts
import BurnAfterRead.Proofs.Concurrency.Confinement
import BurnAfterRead.Proofs.Concurrency.Finality
import BurnAfterRead.Proofs.Concurrency.Conservation
import BurnAfterRead.Proofs.Concurrency.Redemption
import BurnAfterRead.Proofs.Service.Sequential
import BurnAfterRead.Proofs.Service.Vault
import BurnAfterRead.Proofs.Text.Digits
import BurnAfterRead.Proofs.Time.Calendar
import BurnAfterRead.Proofs.Time.Timestamp
import BurnAfterRead.Proofs.Store.TextTable
import BurnAfterRead.Proofs.Json.RoundTrip
import BurnAfterRead.Proofs.Store.Payload
import BurnAfterRead.Proofs.Store.Keeping
import BurnAfterRead.Proofs.Store.KeyValue
import BurnAfterRead.Proofs.Store.Document
import BurnAfterRead.Proofs.Store.ServerTable
import BurnAfterRead.Proofs.Service.Backends
import BurnAfterRead.Proofs.Service.Sweeping
import BurnAfterRead.Proofs.Service.Lending
import BurnAfterRead.Proofs.Service.InMemory
import BurnAfterRead.Proofs.Http.Plan
import BurnAfterRead.Proofs.Http.Wire
import BurnAfterRead.Proofs.Http.Burning
import BurnAfterRead.Proofs.Http.Redemption
import BurnAfterRead.Proofs.Http.Absence
import BurnAfterRead.Proofs.Limiter.Run
import BurnAfterRead.Proofs.Limiter.Exact
import BurnAfterRead.Proofs.Limiter.Envelope
import BurnAfterRead.Proofs.Limiter.Eviction
import BurnAfterRead.Proofs.Http.Deferral
import BurnAfterRead.Proofs.Http.Admission
import BurnAfterRead.Proofs.Http.ErrorReport
import BurnAfterRead.Proofs.Http.Creation
import BurnAfterRead.Proofs.Json.Grammar
import BurnAfterRead.Proofs.Json.Skipping
import BurnAfterRead.Proofs.Json.Records
import BurnAfterRead.Proofs.Store.PayloadText
import BurnAfterRead.Proofs.Relational.Line
import BurnAfterRead.Proofs.Relational.Sessions
import BurnAfterRead.Proofs.Limiter.Waiting
import BurnAfterRead.Proofs.Limiter.Credit
import BurnAfterRead.Proofs.Settings.Credentials
import BurnAfterRead.Proofs.Settings.Serving
import BurnAfterRead.Proofs.Time.Spans
import BurnAfterRead.Proofs.Store.Lifetime
import BurnAfterRead.Proofs.Store.Rounding
import BurnAfterRead.Proofs.Relational.Commit
import BurnAfterRead.Proofs.Relational.Closing
import BurnAfterRead.Proofs.Text.Trim
import BurnAfterRead.Proofs.Time.Terms
import BurnAfterRead.Proofs.Time.Compact
import BurnAfterRead.Proofs.Http.Discretion
import BurnAfterRead.Proofs.Relational.Persistence
import BurnAfterRead.Proofs.Http.Sources
import BurnAfterRead.Proofs.Http.Ports
import BurnAfterRead.Proofs.Relational.Tokens
import BurnAfterRead.Proofs.Relational.TableName
import BurnAfterRead.Proofs.Connection.Access
import BurnAfterRead.Proofs.Connection.Address
import BurnAfterRead.Proofs.Settings.Layering
import BurnAfterRead.Proofs.Limiter.Tracking
import BurnAfterRead.Proofs.BackgroundTask.Rounds
import BurnAfterRead.Proofs.BackgroundTask.Upkeep
import BurnAfterRead.Proofs.Crypto.Generator
import BurnAfterRead.Proofs.Text.Form
import BurnAfterRead.Proofs.Http.RandomString
