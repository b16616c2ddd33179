import Schemata.Text.Letter
import Schemata.Text.Case
import Schemata.Text.Blank
import Schemata.Text.Quoted
import Schemata.Text.Utf8
import Schemata.Journal
import Schemata.Number.Numeral
import Schemata.Token.Lexeme
import Schemata.Shape.Reading
import Schemata.Schema.Reading
import Schemata.Compilation
import Schemata.Plan
import Schemata.Catalog.Deployed
import Schemata.TypeModule
import Schemata.Display.SchemaTable
import Schemata.Text.Percent
import Schemata.Session.Migration
import Schemata.Settings
import Schemata.Command.World
import Schemata.CommandLine
import Schemata.Main
import Schemata.Proofs.Outcome
import Schemata.Proofs.Plan.Column
import Schemata.Proofs.Plan.Order
import Schemata.Proofs.Plan.Statements
import Schemata.Proofs.Plan.Changes
import Schemata.Proofs.Plan.References
import Schemata.Proofs.Database
import Schemata.Proofs.Database.Alteration
import Schemata.Proofs.Database.Convergence
import Schemata.Proofs.Catalog.Folding
import Schemata.Proofs.Plan.Drops
import Schemata.Proofs.Plan.Precedence
import Schemata.Proofs.Schema.Compiled
import Schemata.Proofs.Schema.Recognition
import Schemata.Proofs.Session.Migration
import Schemata.Proofs.Catalog.Survival
import Schemata.Proofs.Catalog.RoundTrip
import Schemata.Proofs.Token.Spans
import Schemata.Proofs.Schema.Breaking
import Schemata.Proofs.Schema.Isolation
import Schemata.Proofs.Schema.Written
import Schemata.Proofs.Catalog.WrittenDefaults
import Schemata.Proofs.Catalog.Dropping
import Schemata.Proofs.Plan.Fresh
import Schemata.Proofs.Plan.Closed
import Schemata.Proofs.Files
import Schemata.Proofs.Text.Case
import Schemata.Proofs.Database.Nullability
import Schemata.Proofs.Connection.Target
import Schemata.Proofs.Command.Effects
import Schemata.Proofs.Command.Failing
import Schemata.Proofs.Shape.Reading
import Schemata.Proofs.Schema.Accepted
import Schemata.Proofs.TypeModule.ClassNames
import Schemata.Proofs.TypeModule.Bindings
import Schemata.Proofs.TypeModule.Clashes
import Schemata.Proofs.Plan.Cycles
import Schemata.Proofs.Catalog.Joins
import Schemata.Proofs.Database.Defaults
import Schemata.Proofs.Catalog.FoldingLoop
import Schemata.Proofs.Catalog.ShownModels
import Schemata.Proofs.Catalog.PhysicalColumns
import Schemata.Proofs.Shape.Recognition
import Schemata.Proofs.Token.Order
import Schemata.Proofs.Schema.Places
import Schemata.Proofs.Schema.Declared
import Schemata.Proofs.Schema.Violations
import Schemata.Proofs.Plan.Failing
import Schemata.Proofs.Plan.Lookups
import Schemata.Proofs.Shape.Nesting
import Schemata.Proofs.Schema.Shapes
import Schemata.Proofs.Catalog.PlainDefaults
import Schemata.Proofs.Statement.MySqlStrings
import Schemata.Proofs.Statement.Scanning
import Schemata.Proofs.Statement.Templates
import Schemata.Proofs.Plan.Quoting
import Schemata.Proofs.Plan.Listing
import Schemata.Proofs.Plan.JoinTables
import Schemata.Proofs.Token.RawBlocks
import Schemata.Proofs.TypeModule.Sites
import Schemata.Proofs.TypeModule.Declarations
import Schemata.Proofs.Catalog.Constraints
import Schemata.Proofs.Session.Introspector
import Schemata.Proofs.Catalog.FieldNames
import Schemata.Proofs.Display.Markup
import Schemata.Proofs.Display.Table
import Schemata.Proofs.Display.SchemaTable
import Schemata.Proofs.Plan.Stability
import Schemata.Proofs.Schema.Progress
