import Batchwork.Act
import Batchwork.Component
import Batchwork.Decimal.Float
import Batchwork.Decimal.Shortest
import Batchwork.Documents
import Batchwork.Error
import Batchwork.File
import Batchwork.Http.Domain
import Batchwork.Http.Host
import Batchwork.Http.Percent
import Batchwork.Http.Repository
import Batchwork.Http.Url
import Batchwork.Job
import Batchwork.Json.ArrayReader
import Batchwork.Json.ByteSource
import Batchwork.Json.Characters
import Batchwork.Json.Cursor
import Batchwork.Json.Document
import Batchwork.Json.Fault
import Batchwork.Json.Numeral
import Batchwork.Json.Printer
import Batchwork.Json.Record
import Batchwork.Json.Shape
import Batchwork.Json.Skipped
import Batchwork.Json.Value
import Batchwork.Ledger
import Batchwork.Log
import Batchwork.LogWriter
import Batchwork.Memory
import Batchwork.Processor
import Batchwork.Proofs.Documents.Leftovers
import Batchwork.Proofs.Documents.OrderedInserts
import Batchwork.Proofs.Job.Sequencing
import Batchwork.Proofs.Json.Acceptance
import Batchwork.Proofs.Json.Answers
import Batchwork.Proofs.Json.ArrayReadings
import Batchwork.Proofs.Json.Boundaries
import Batchwork.Proofs.Json.Buffering
import Batchwork.Proofs.Json.ByteBudget
import Batchwork.Proofs.Json.Decoding
import Batchwork.Proofs.Json.Delimiters
import Batchwork.Proofs.Json.Grammar
import Batchwork.Proofs.Json.Interruptions
import Batchwork.Proofs.Json.Numerals
import Batchwork.Proofs.Json.Objects
import Batchwork.Proofs.Json.Openings
import Batchwork.Proofs.Json.Records
import Batchwork.Proofs.Json.Scans
import Batchwork.Proofs.Json.Shapes
import Batchwork.Proofs.Json.Spelling
import Batchwork.Proofs.Json.Strings
import Batchwork.Proofs.Json.Taking
import Batchwork.Proofs.Json.Truncation
import Batchwork.Proofs.Json.Utf8
import Batchwork.Proofs.Json.Values
import Batchwork.Proofs.Memory.ChunkAtomicity
import Batchwork.Proofs.Memory.ChunkSizes
import Batchwork.Proofs.Memory.InvalidItems
import Batchwork.Proofs.Memory.Pass
import Batchwork.Proofs.Memory.PlainStores
import Batchwork.Proofs.Memory.QueueToStore
import Batchwork.Proofs.Memory.ReferenceSemantics
import Batchwork.Proofs.Memory.Restarts
import Batchwork.Proofs.Memory.StoredChunks
import Batchwork.Proofs.Memory.TransactionalLog
import Batchwork.Proofs.Processor.Composition
import Batchwork.Proofs.Reader.Readings
import Batchwork.Proofs.Reader.SingleFetch
import Batchwork.Proofs.Settings.Documents
import Batchwork.Proofs.Step.Announcements
import Batchwork.Proofs.Step.Books
import Batchwork.Proofs.Step.Breakdown
import Batchwork.Proofs.Step.BuiltSteps
import Batchwork.Proofs.Step.Bystanders
import Batchwork.Proofs.Step.CallProtocol
import Batchwork.Proofs.Step.CommittedChunks
import Batchwork.Proofs.Step.Conservation
import Batchwork.Proofs.Step.Consultation
import Batchwork.Proofs.Step.Coupling
import Batchwork.Proofs.Step.Custody
import Batchwork.Proofs.Step.Events
import Batchwork.Proofs.Step.Failures
import Batchwork.Proofs.Step.FiniteSupply
import Batchwork.Proofs.Step.ItemOrder
import Batchwork.Proofs.Step.LogRecords
import Batchwork.Proofs.Step.Notifications
import Batchwork.Proofs.Step.Passage
import Batchwork.Proofs.Step.Paths
import Batchwork.Proofs.Step.Provenance
import Batchwork.Proofs.Step.SkipAccounting
import Batchwork.Proofs.Step.Stages
import Batchwork.Proofs.Step.Stopping
import Batchwork.Proofs.Table.Autocommit
import Batchwork.Proofs.Table.BuiltWriters
import Batchwork.Proofs.Table.JoinedStatements
import Batchwork.Proofs.Table.LawfulDatabase
import Batchwork.Proofs.Table.PlainTables
import Batchwork.Proofs.Table.RowAtomicity
import Batchwork.Proofs.Table.Slices
import Batchwork.Proofs.Table.Statements
import Batchwork.Proofs.Table.StoreAgreement
import Batchwork.Rehearsal.Rule
import Batchwork.Rehearsal.Samples
import Batchwork.Rehearsal.Script
import Batchwork.Rehearsal.Stage
import Batchwork.Repository
import Batchwork.Settings
import Batchwork.Skip
import Batchwork.Step
import Batchwork.StepBuilder
import Batchwork.Table.Cell
import Batchwork.Table.Database
import Batchwork.Table.Fault
import Batchwork.Table.Index
import Batchwork.Table.Rows
import Batchwork.Table.Schema
import Batchwork.Table.Session
import Batchwork.Table.Statement
import Batchwork.Table.Writer
import Batchwork.Text.Blank
import Batchwork.Text.Extender
import Batchwork.Text.Quoted
import Batchwork.Text.Unprintable
