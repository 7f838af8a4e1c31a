import SchemaLedger.Calendar
import SchemaLedger.CommandLine.Argument
import SchemaLedger.CommandLine.Invocation
import SchemaLedger.CommandLine.Perform
import SchemaLedger.CommandLine.Run
import SchemaLedger.CommandLine.Verb
import SchemaLedger.Config.LogLevel
import SchemaLedger.Config.Settings
import SchemaLedger.Database.Engine
import SchemaLedger.Database.Url
import SchemaLedger.Dependency.Closure
import SchemaLedger.Dependency.Graph
import SchemaLedger.Dependency.Order
import SchemaLedger.Event
import SchemaLedger.Failure
import SchemaLedger.Files.Path
import SchemaLedger.Files.Tree
import SchemaLedger.Json.Reader
import SchemaLedger.Logging.Logger
import SchemaLedger.Logging.Template
import SchemaLedger.Main
import SchemaLedger.Migration.Apply
import SchemaLedger.Migration.Catalog
import SchemaLedger.Migration.Draft
import SchemaLedger.Migration.Ledger
import SchemaLedger.Migration.Migrator
import SchemaLedger.Migration.RollbackCount
import SchemaLedger.Migration.Status
import SchemaLedger.Number.Double
import SchemaLedger.Number.Numeral
import SchemaLedger.Number.Significant
import SchemaLedger.Proofs.Alarms
import SchemaLedger.Proofs.Alternation
import SchemaLedger.Proofs.Atomicity
import SchemaLedger.Proofs.Attempt
import SchemaLedger.Proofs.CalendarOrder
import SchemaLedger.Proofs.Calm
import SchemaLedger.Proofs.CalmRun
import SchemaLedger.Proofs.CommandHistory
import SchemaLedger.Proofs.CommandRun
import SchemaLedger.Proofs.CommentRemoval
import SchemaLedger.Proofs.CommentScripts
import SchemaLedger.Proofs.CountText
import SchemaLedger.Proofs.Depth
import SchemaLedger.Proofs.Discipline
import SchemaLedger.Proofs.Effect
import SchemaLedger.Proofs.Escaping
import SchemaLedger.Proofs.FailureReports
import SchemaLedger.Proofs.Fates
import SchemaLedger.Proofs.FileUrls
import SchemaLedger.Proofs.Frame
import SchemaLedger.Proofs.FullRun
import SchemaLedger.Proofs.Insertions
import SchemaLedger.Proofs.JsonReading
import SchemaLedger.Proofs.Layering
import SchemaLedger.Proofs.Leaks
import SchemaLedger.Proofs.LedgerAccess
import SchemaLedger.Proofs.LedgerReadings
import SchemaLedger.Proofs.LedgerRows
import SchemaLedger.Proofs.LedgerStep
import SchemaLedger.Proofs.LexemeRules
import SchemaLedger.Proofs.Locality
import SchemaLedger.Proofs.Newest
import SchemaLedger.Proofs.Pending
import SchemaLedger.Proofs.Placement
import SchemaLedger.Proofs.Places
import SchemaLedger.Proofs.PlainWords
import SchemaLedger.Proofs.PrerequisiteOrder
import SchemaLedger.Proofs.Prerequisites
import SchemaLedger.Proofs.ReleaseOrder
import SchemaLedger.Proofs.Remarks
import SchemaLedger.Proofs.ReportedCycles
import SchemaLedger.Proofs.Reports
import SchemaLedger.Proofs.Restoring
import SchemaLedger.Proofs.Resumption
import SchemaLedger.Proofs.Reversal
import SchemaLedger.Proofs.Rollback
import SchemaLedger.Proofs.RollbackLimit
import SchemaLedger.Proofs.ScriptSplit
import SchemaLedger.Proofs.SeederAttempt
import SchemaLedger.Proofs.SeederListing
import SchemaLedger.Proofs.SeederOrder
import SchemaLedger.Proofs.SeederResolution
import SchemaLedger.Proofs.SeederTurns
import SchemaLedger.Proofs.SeedingRun
import SchemaLedger.Proofs.SettingsFiles
import SchemaLedger.Proofs.SimpleStatements
import SchemaLedger.Proofs.Spelling
import SchemaLedger.Proofs.StatusLaw
import SchemaLedger.Proofs.StuckWalk
import SchemaLedger.Proofs.Subgraph
import SchemaLedger.Proofs.TidyLines
import SchemaLedger.Proofs.Timeless
import SchemaLedger.Proofs.Transaction
import SchemaLedger.Proofs.UrlRecognition
import SchemaLedger.Proofs.Verbatim
import SchemaLedger.Proofs.WaitingCounts
import SchemaLedger.Proofs.Walks
import SchemaLedger.Proofs.Work
import SchemaLedger.Proofs.Wrapping
import SchemaLedger.Registry
import SchemaLedger.Registry.Module
import SchemaLedger.Routine
import SchemaLedger.Seeding.Listing
import SchemaLedger.Seeding.Order
import SchemaLedger.Seeding.Run
import SchemaLedger.Seeding.Seeder
import SchemaLedger.Session
import SchemaLedger.Sql.Comment
import SchemaLedger.Sql.Cut
import SchemaLedger.Sql.Lexeme
import SchemaLedger.Sql.Parameter
import SchemaLedger.Sql.Reader
import SchemaLedger.Sql.Script
import SchemaLedger.Store.Connection
import SchemaLedger.Store.Handle
import SchemaLedger.Store.Statement
import SchemaLedger.Store.Table
import SchemaLedger.Text.Blank
import SchemaLedger.Text.CharClass
import SchemaLedger.Text.Digit
import SchemaLedger.Text.Line
import SchemaLedger.Text.Printable
import SchemaLedger.Text.Quoted
import SchemaLedger.Text.UpperCase
import SchemaLedger.Text.Utf8
import SchemaLedger.Text.WordChar
import SchemaLedger.Value
import SchemaLedger.Value.Order
import SchemaLedger.Yaml.Document
import SchemaLedger.Yaml.Fault
import SchemaLedger.Yaml.Scalar
import SchemaLedger.Yaml.Token
