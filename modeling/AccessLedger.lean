import AccessLedger.Calendar
import AccessLedger.Collation.Element
import AccessLedger.Collation.Folding
import AccessLedger.Collation.Languages
import AccessLedger.Collation.Locale
import AccessLedger.Collation.Tag
import AccessLedger.CommandLine.Arguments
import AccessLedger.CommandLine.Parameter
import AccessLedger.CommandLine.Run
import AccessLedger.Decimal.Nearest
import AccessLedger.Decimal.Shortest
import AccessLedger.Decoding.Mismatch
import AccessLedger.Diagnostic
import AccessLedger.Filter.Json
import AccessLedger.Filter.Option
import AccessLedger.Filter.Selection
import AccessLedger.Instant
import AccessLedger.Integer64
import AccessLedger.Json.Decoder
import AccessLedger.Json.Document
import AccessLedger.Json.Fault
import AccessLedger.Json.Literal
import AccessLedger.Json.Record
import AccessLedger.Json.Skip
import AccessLedger.Labels
import AccessLedger.Main
import AccessLedger.Proofs.Checked
import AccessLedger.Proofs.Collation
import AccessLedger.Proofs.CommandLine.Again
import AccessLedger.Proofs.CommandLine.Settings
import AccessLedger.Proofs.CommandLine.Viewing
import AccessLedger.Proofs.Distinct
import AccessLedger.Proofs.Elapsed
import AccessLedger.Proofs.Filter.Choice
import AccessLedger.Proofs.Filter.Offered
import AccessLedger.Proofs.Filter.Sorting
import AccessLedger.Proofs.Filter.Target
import AccessLedger.Proofs.Grouping
import AccessLedger.Proofs.Json.Grammar
import AccessLedger.Proofs.Json.Layout
import AccessLedger.Proofs.Json.Literal
import AccessLedger.Proofs.Json.Member
import AccessLedger.Proofs.Json.Record
import AccessLedger.Proofs.Json.Unambiguous
import AccessLedger.Proofs.Json.Value
import AccessLedger.Proofs.Latest
import AccessLedger.Proofs.Recency
import AccessLedger.Proofs.Record
import AccessLedger.Proofs.Repair
import AccessLedger.Proofs.Report.Json
import AccessLedger.Proofs.Report.Text
import AccessLedger.Proofs.Session.Again
import AccessLedger.Proofs.Session.Chosen
import AccessLedger.Proofs.Session.Coherent
import AccessLedger.Proofs.Session.Commuting
import AccessLedger.Proofs.Session.Restart
import AccessLedger.Proofs.Session.Run
import AccessLedger.Proofs.Session.Sticking
import AccessLedger.Proofs.Session.Target
import AccessLedger.Proofs.Session.UpToDate
import AccessLedger.Proofs.Settings
import AccessLedger.Proofs.Snapshot
import AccessLedger.Proofs.StableSort
import AccessLedger.Proofs.Storage.Files
import AccessLedger.Proofs.Storage.Stored
import AccessLedger.Proofs.Summary
import AccessLedger.Proofs.Text.Basic
import AccessLedger.Proofs.Text.Lines
import AccessLedger.Proofs.Text.Substitute
import AccessLedger.Proofs.Toml.Lines
import AccessLedger.Proofs.Toml.Tables
import AccessLedger.Proofs.Toml.Text
import AccessLedger.Proofs.Toml.Values
import AccessLedger.Proofs.Usage.Ageing
import AccessLedger.Proofs.Usage.Ages
import AccessLedger.Proofs.Usage.Buckets
import AccessLedger.Proofs.Usage.Checks
import AccessLedger.Proofs.Usage.Copies
import AccessLedger.Proofs.Usage.Digest
import AccessLedger.Proofs.Usage.Entries
import AccessLedger.Proofs.Usage.Filtering
import AccessLedger.Proofs.Usage.Grouped
import AccessLedger.Proofs.Usage.Ineligible
import AccessLedger.Proofs.Usage.Labelling
import AccessLedger.Proofs.Usage.Narrowing
import AccessLedger.Proofs.Usage.Order
import AccessLedger.Proofs.Usage.Pairs
import AccessLedger.Proofs.Usage.Passing
import AccessLedger.Proofs.Usage.Recent
import AccessLedger.Proofs.Usage.Rows
import AccessLedger.Proofs.Usage.Skips
import AccessLedger.Proofs.Usage.SystemApps
import AccessLedger.Proofs.Usage.Unplaced
import AccessLedger.Proofs.Window
import AccessLedger.Report
import AccessLedger.Report.Heading
import AccessLedger.Report.Json
import AccessLedger.Report.Text
import AccessLedger.Session
import AccessLedger.Session.Toml
import AccessLedger.Settings
import AccessLedger.Settings.Toml
import AccessLedger.Snapshot.Basic
import AccessLedger.Snapshot.Json
import AccessLedger.Storage.Files
import AccessLedger.Storage.Stored
import AccessLedger.Text.Blank
import AccessLedger.Text.Lowercase
import AccessLedger.Text.Quoted
import AccessLedger.Text.Raw
import AccessLedger.Text.Substitute
import AccessLedger.Text.Terminal
import AccessLedger.Text.TextSet
import AccessLedger.Text.Visible
import AccessLedger.Toml.Moment
import AccessLedger.Toml.Number
import AccessLedger.Toml.Record
import AccessLedger.Toml.Source
import AccessLedger.Toml.Table
import AccessLedger.Toml.Text
import AccessLedger.Toml.Value
import AccessLedger.Toml.Writer
import AccessLedger.Usage.Observation
import AccessLedger.Usage.Pass
import AccessLedger.Usage.Tree
import AccessLedger.Usage.View
import AccessLedger.Window
