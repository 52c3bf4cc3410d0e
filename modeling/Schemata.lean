import Schemata.Main
import Schemata.Proofs.Export.Moves
import Schemata.Proofs.Export.Newest
import Schemata.Proofs.Export.Fetches
import Schemata.Proofs.Export.Schedule
import Schemata.Proofs.Export.Visits
import Schemata.Proofs.Export.Calls
import Schemata.Proofs.Export.Assembled
import Schemata.Proofs.Export.Independence
import Schemata.Proofs.Catalogue.Groups
import Schemata.Proofs.Catalogue.Attributes
import Schemata.Proofs.ColumnType.Spelling
import Schemata.Proofs.Document.Marks
import Schemata.Proofs.Document.CreateTable
import Schemata.Proofs.Document.UpdateRules
import Schemata.Proofs.Document.Constraints
import Schemata.Proofs.Document.Migration
import Schemata.Proofs.Document.ModelAgreement
import Schemata.Proofs.Document.CreatedColumns
import Schemata.Proofs.Document.ObjectTypes
import Schemata.Proofs.Document.Declarations
import Schemata.Proofs.Document.Selections
import Schemata.Proofs.Document.Defaults
import Schemata.Proofs.Document.Accessors
import Schemata.Proofs.Json.Number
import Schemata.Proofs.Json.Reads
import Schemata.Proofs.Json.Records
import Schemata.Proofs.Interchange.RoundTrip
import Schemata.Proofs.Interchange.Format
import Schemata.Proofs.Url.Redaction
import Schemata.Proofs.Url.DatabaseName
import Schemata.Proofs.Document.Composition
import Schemata.Proofs.Document.Literals
import Schemata.Proofs.Document.Alignment
import Schemata.Proofs.Document.AttributeTypes
import Schemata.Proofs.Settings
import Schemata.Proofs.Naming.Forms
import Schemata.Proofs.CommandLine.Rendering
