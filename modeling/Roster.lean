import Roster.Backend
import Roster.Check.Grammar
import Roster.Check.Kind
import Roster.Check.Policy
import Roster.Check.Validator
import Roster.Delimited.Format
import Roster.Delimited.Reader
import Roster.Fault
import Roster.Field.Attribute
import Roster.Field.Catalog
import Roster.Field.Definition
import Roster.Field.Kind
import Roster.Filter.Basic
import Roster.Filter.Clause
import Roster.Filter.Matching
import Roster.Filter.Parser
import Roster.Json.Reader
import Roster.Json.Writer
import Roster.Manifest.Basic
import Roster.Manifest.Document
import Roster.Manifest.Reference
import Roster.Number.Decimal
import Roster.Number.Double
import Roster.Number.Numeral
import Roster.Number.Shortest
import Roster.Proofs.Check.Forms
import Roster.Proofs.Check.LoginName
import Roster.Proofs.Check.Patterns
import Roster.Proofs.Check.Policy
import Roster.Proofs.Check.Verdicts
import Roster.Proofs.Delimited.Reading
import Roster.Proofs.Delimited.RoundTrip
import Roster.Proofs.Filter.Agreement
import Roster.Proofs.Filter.ClauseText
import Roster.Proofs.Filter.Composition
import Roster.Proofs.Filter.Lexemes
import Roster.Proofs.Filter.Pattern
import Roster.Proofs.Filter.Reading
import Roster.Proofs.Filter.Writing
import Roster.Proofs.Json.LineEnds
import Roster.Proofs.Json.Number
import Roster.Proofs.Json.RoundTrip
import Roster.Proofs.Json.Text
import Roster.Proofs.Manifest.Content
import Roster.Proofs.Manifest.Reference
import Roster.Proofs.Manifest.RoundTrip
import Roster.Proofs.Number.Double
import Roster.Proofs.Number.Layout
import Roster.Proofs.Number.Numeral
import Roster.Proofs.Number.Shortest
import Roster.Proofs.Registry.Application
import Roster.Proofs.Registry.Archives
import Roster.Proofs.Registry.Backends
import Roster.Proofs.Registry.Dates
import Roster.Proofs.Registry.FailedSetup
import Roster.Proofs.Registry.Fresh
import Roster.Proofs.Registry.Histories
import Roster.Proofs.Registry.Home
import Roster.Proofs.Registry.Installation
import Roster.Proofs.Registry.Interchange
import Roster.Proofs.Registry.Manifests
import Roster.Proofs.Registry.MapStores
import Roster.Proofs.Registry.Outcomes
import Roster.Proofs.Registry.Reached
import Roster.Proofs.Registry.Registration
import Roster.Proofs.Registry.Reloading
import Roster.Proofs.Registry.Requests
import Roster.Proofs.Registry.Required
import Roster.Proofs.Registry.Residents
import Roster.Proofs.Registry.Setups
import Roster.Proofs.Registry.Simulation
import Roster.Proofs.Registry.Sites
import Roster.Proofs.Registry.WellFormed
import Roster.Proofs.Registry.Work
import Roster.Proofs.Registry.Writes
import Roster.Proofs.Registry.WritingBack
import Roster.Proofs.Schema.Accepted
import Roster.Proofs.Schema.Assembly
import Roster.Proofs.Schema.Attributes
import Roster.Proofs.Schema.Decoded
import Roster.Proofs.Schema.Definition
import Roster.Proofs.Schema.Options
import Roster.Proofs.Schema.Overrides
import Roster.Proofs.Schema.Segments
import Roster.Proofs.Schema.Storable
import Roster.Proofs.Setup.Rules
import Roster.Proofs.Steps
import Roster.Proofs.Storage.Archive
import Roster.Proofs.Storage.Naming
import Roster.Proofs.Storage.Path
import Roster.Proofs.Storage.Query
import Roster.Proofs.Storage.Sound
import Roster.Proofs.Storage.Tables
import Roster.Proofs.Storage.Tidy
import Roster.Proofs.Storage.Tree
import Roster.Proofs.Store.Answers
import Roster.Proofs.Store.Beside
import Roster.Proofs.Store.Book
import Roster.Proofs.Store.Columns
import Roster.Proofs.Store.Confinement
import Roster.Proofs.Store.Constraint
import Roster.Proofs.Store.Documents
import Roster.Proofs.Store.Edited
import Roster.Proofs.Store.Effect
import Roster.Proofs.Store.Known
import Roster.Proofs.Store.Listing
import Roster.Proofs.Store.Mounted
import Roster.Proofs.Store.Place
import Roster.Proofs.Store.Preparation
import Roster.Proofs.Store.Readable
import Roster.Proofs.Store.Record
import Roster.Proofs.Store.Replaced
import Roster.Proofs.Store.Roll
import Roster.Proofs.Store.Sheet
import Roster.Proofs.Store.SheetRoundTrip
import Roster.Proofs.Store.Standing
import Roster.Proofs.Store.Table
import Roster.Proofs.Store.TableStore
import Roster.Proofs.Store.Texts
import Roster.Proofs.Store.Vacant
import Roster.Proofs.Store.Work
import Roster.Proofs.Text.Trimming
import Roster.Proofs.Value.Document
import Roster.Proofs.Value.Entries
import Roster.Proofs.Value.Kinds
import Roster.Proofs.Yaml.Blocks
import Roster.Proofs.Yaml.Building
import Roster.Proofs.Yaml.Cursor
import Roster.Proofs.Yaml.Implicit
import Roster.Proofs.Yaml.Lexer
import Roster.Proofs.Yaml.Nodes
import Roster.Proofs.Yaml.Plain
import Roster.Proofs.Yaml.Printer
import Roster.Proofs.Yaml.Quoted
import Roster.Proofs.Yaml.Remarks
import Roster.Proofs.Yaml.RoundTrip
import Roster.Proofs.Yaml.Scanning
import Roster.Proofs.Yaml.Stretches
import Roster.Proofs.Yaml.Styles
import Roster.Proofs.Yaml.Tagless
import Roster.Proofs.Yaml.Tokens
import Roster.Proofs.Yaml.Untagged
import Roster.Proofs.Yaml.Words
import Roster.Registry.Answer
import Roster.Registry.Basic
import Roster.Registry.Fields
import Roster.Registry.Setup
import Roster.Registry.Users
import Roster.Registry.Work
import Roster.Schema.Assembly
import Roster.Schema.Basic
import Roster.Schema.Warning
import Roster.Settings
import Roster.Setup.Fault
import Roster.Setup.Rules
import Roster.Setup.Shape
import Roster.Storage.Archive
import Roster.Storage.Clock
import Roster.Storage.Database
import Roster.Storage.Outage
import Roster.Storage.Path
import Roster.Storage.Query
import Roster.Storage.Tree
import Roster.Store.Basic
import Roster.Store.Documents
import Roster.Store.Mounted
import Roster.Store.Opening
import Roster.Store.Preparation
import Roster.Store.Refusal
import Roster.Store.Sheet
import Roster.Store.TableStore
import Roster.Store.Work
import Roster.Text.Blank
import Roster.Text.Case
import Roster.Text.CaseTable
import Roster.Text.Printable
import Roster.Text.Quoted
import Roster.Text.Ranges
import Roster.Text.Segments
import Roster.Text.Utf8
import Roster.Text.Word
import Roster.Value.Basic
import Roster.Value.Display
import Roster.Value.Fault
import Roster.Value.Pairs
import Roster.Yaml.Cursor
import Roster.Yaml.Datum
import Roster.Yaml.Document
import Roster.Yaml.Fault
import Roster.Yaml.Implicit
import Roster.Yaml.Lexer
import Roster.Yaml.Meaning
import Roster.Yaml.Node
import Roster.Yaml.Printer
import Roster.Yaml.Scalar
import Roster.Yaml.Style
import Roster.Yaml.Tag
import Roster.Yaml.Timestamp
import Roster.Yaml.Token
