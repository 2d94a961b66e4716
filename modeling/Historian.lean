import Historian.Catalog.Basic
import Historian.Catalog.Error
import Historian.Catalog.Operation
import Historian.Catalog.Record
import Historian.Command.Arguments
import Historian.Command.Basic
import Historian.Command.Call
import Historian.Command.Disk
import Historian.Command.Error
import Historian.Command.Reading
import Historian.Command.Run
import Historian.Decimal.Binary64
import Historian.Decimal.Reading
import Historian.Decimal.Shortest
import Historian.Digest.Base64
import Historian.Digest.Sha256
import Historian.Duration
import Historian.Engine.Column
import Historian.Engine.Connection
import Historian.Engine.Describe
import Historian.Engine.Error
import Historian.Engine.Execution
import Historian.Engine.Rest
import Historian.Engine.Service
import Historian.Engine.TableName
import Historian.Engine.Tables
import Historian.Feature.Aggregate
import Historian.Feature.Config
import Historian.Feature.Filter
import Historian.Feature.Query
import Historian.Identifier
import Historian.Invalid
import Historian.Json.Members
import Historian.Json.Numeral
import Historian.Json.Parser
import Historian.Json.Pretty
import Historian.Json.Printer
import Historian.Json.Token
import Historian.Json.Value
import Historian.Locks
import Historian.Program
import Historian.Proofs.Basic
import Historian.Proofs.Catalog.Features
import Historian.Proofs.Catalog.Integrity
import Historian.Proofs.Catalog.Locality
import Historian.Proofs.Catalog.Operations
import Historian.Proofs.Catalog.Tasks
import Historian.Proofs.Engine.Execution
import Historian.Proofs.Engine.Growth
import Historian.Proofs.Engine.Redelivery
import Historian.Proofs.Engine.Schemas
import Historian.Proofs.Engine.Streams
import Historian.Proofs.Feature.Document
import Historian.Proofs.Json.Numerals
import Historian.Proofs.Json.Reading
import Historian.Proofs.Json.Scanning
import Historian.Proofs.Json.Zeros
import Historian.Proofs.Locks
import Historian.Proofs.Program.Calls
import Historian.Proofs.Program.Discipline
import Historian.Proofs.Program.Ensures
import Historian.Proofs.Program.Interleaving
import Historian.Proofs.Program.Nesting
import Historian.Proofs.Program.Replies
import Historian.Proofs.Schema.Accounting
import Historian.Proofs.Schema.Alteration
import Historian.Proofs.Schema.Calls
import Historian.Proofs.Schema.Children
import Historian.Proofs.Schema.Conformance
import Historian.Proofs.Schema.Faithful
import Historian.Proofs.Schema.FastPath
import Historian.Proofs.Schema.Frame
import Historian.Proofs.Schema.Idempotence
import Historian.Proofs.Schema.Mending
import Historian.Proofs.Schema.Outcome
import Historian.Proofs.Schema.Provision
import Historian.Proofs.Schema.Rendering
import Historian.Proofs.Schema.Repair
import Historian.Proofs.Schema.Resumption
import Historian.Proofs.Schema.Retyping
import Historian.Proofs.Schema.Runs
import Historian.Proofs.Schema.Statement
import Historian.Proofs.Schema.Steps
import Historian.Proofs.Schema.Sync
import Historian.Proofs.Sql.Lexing
import Historian.Proofs.Sql.Reading
import Historian.Proofs.Sql.Values
import Historian.Proofs.Stream.Agreement
import Historian.Proofs.Stream.Concurrent
import Historian.Proofs.Stream.Deadlock
import Historian.Proofs.Stream.Moves
import Historian.Proofs.Stream.Failures
import Historian.Proofs.Stream.Names
import Historian.Proofs.Stream.Owners
import Historian.Proofs.Stream.Preview
import Historian.Proofs.Stream.Requests
import Historian.Proofs.Stream.Runs
import Historian.Proofs.Stream.Statement
import Historian.Proofs.Stream.Tokens
import Historian.Proofs.Stream.Writers
import Historian.Retry
import Historian.Schema.Desired
import Historian.Schema.Diff
import Historian.Schema.Error
import Historian.Schema.Statement
import Historian.Schema.Synchronizer
import Historian.Settings
import Historian.Signal.DataType
import Historian.Sql.Lexer
import Historian.Sql.Quote
import Historian.Sql.Statement
import Historian.Sql.Token
import Historian.Stream.Error
import Historian.Stream.Lifecycle
import Historian.Stream.Manager
import Historian.Stream.Status
import Historian.Text.Blank
import Historian.Text.Case
import Historian.Text.Cut
import Historian.Text.Invisible
import Historian.Text.Letter
import Historian.Text.Number
import Historian.Text.Numeral
import Historian.Text.Quoted
import Historian.Toml.Parser
import Historian.Toml.Printer
import Historian.Toml.Scalar
import Historian.Toml.Table
import Historian.Toml.Text
import Historian.Turns
import Historian.Wire.Catalog
import Historian.Wire.Engine
import Historian.Wire.Feature
import Historian.Wire.Record
import Historian.Wire.Report
import Historian.Wire.Settings
import Historian.World
import Historian.Main
import Historian.Proofs.Stream.History
import Historian.Proofs.Stream.Lifecycle
import Historian.Proofs.Stream.Deletion
import Historian.Proofs.Duration
import Historian.Proofs.Json.Members
import Historian.Proofs.Sorting
import Historian.Proofs.Feature.Order
import Historian.Proofs.Feature.Filters
import Historian.Proofs.Feature.Canonical
import Historian.Proofs.Feature.Equivalence
import Historian.Proofs.Schema.Independence
import Historian.Proofs.Schema.Once
import Historian.Proofs.Stream.Replay
import Historian.Proofs.Feature.NormalForm
import Historian.Proofs.Feature.Columns
import Historian.Proofs.Stream.Registration
import Historian.Proofs.Stream.Outcomes
import Historian.Proofs.Catalog.Generations
import Historian.Proofs.Schema.Classification
import Historian.Proofs.Schema.Fingerprint
import Historian.Proofs.Stream.Queries
import Historian.Proofs.Schema.Listing
import Historian.Proofs.Engine.ChildTables
import Historian.Proofs.Schema.Binding
import Historian.Proofs.Schema.Foreign
import Historian.Proofs.Retry
import Historian.Proofs.LockHistory
