import SchemaClient.Bindings.Client
import SchemaClient.Bindings.Conversion
import SchemaClient.Bindings.EnumBinding
import SchemaClient.Bindings.FieldType
import SchemaClient.Bindings.InputStruct
import SchemaClient.Bindings.ObjectStruct
import SchemaClient.Bindings.OperationStruct
import SchemaClient.Code.Layout
import SchemaClient.Code.Pretty
import SchemaClient.Code.Quoted
import SchemaClient.Code.Token
import SchemaClient.Code.Tree
import SchemaClient.Command.Options
import SchemaClient.Command.Run
import SchemaClient.Dictionary
import SchemaClient.Error
import SchemaClient.Exchange.ChosenField
import SchemaClient.Exchange.Client
import SchemaClient.Exchange.Endpoint
import SchemaClient.Exchange.Failure
import SchemaClient.Exchange.MediaType
import SchemaClient.Exchange.Response
import SchemaClient.Exchange.Upload
import SchemaClient.Exchange.Variables
import SchemaClient.Files.Access
import SchemaClient.Files.Disk
import SchemaClient.Files.Path
import SchemaClient.Generation.Output
import SchemaClient.Generation.Schema
import SchemaClient.Json.Double
import SchemaClient.Json.Outline
import SchemaClient.Json.Printer
import SchemaClient.Json.Reader
import SchemaClient.Json.Value
import SchemaClient.Main
import SchemaClient.Names.Identifier
import SchemaClient.Names.Word
import SchemaClient.Operation.Document
import SchemaClient.Operation.Selection
import SchemaClient.Proofs.Bindings.Agreement
import SchemaClient.Proofs.Bindings.Containment
import SchemaClient.Proofs.Bindings.Conversions
import SchemaClient.Proofs.Bindings.Declarations
import SchemaClient.Proofs.Bindings.Distinct
import SchemaClient.Proofs.Bindings.EnumTables
import SchemaClient.Proofs.Bindings.Evaluation
import SchemaClient.Proofs.Bindings.FiniteDefaults
import SchemaClient.Proofs.Bindings.LegalNames
import SchemaClient.Proofs.Bindings.MemberVariables
import SchemaClient.Proofs.Bindings.Methods
import SchemaClient.Proofs.Bindings.References
import SchemaClient.Proofs.Bindings.Scopes
import SchemaClient.Proofs.Bindings.WireKeys
import SchemaClient.Proofs.Code.Identifiers
import SchemaClient.Proofs.Code.Paths
import SchemaClient.Proofs.Command.Endings
import SchemaClient.Proofs.Dictionary
import SchemaClient.Proofs.Exchange.MapPaths
import SchemaClient.Proofs.Exchange.NullValues
import SchemaClient.Proofs.Exchange.NulledLocations
import SchemaClient.Proofs.Exchange.ReportedErrors
import SchemaClient.Proofs.Exchange.UploadForms
import SchemaClient.Proofs.Files.Changes
import SchemaClient.Proofs.Files.Entries
import SchemaClient.Proofs.Files.Faults
import SchemaClient.Proofs.Files.Locations
import SchemaClient.Proofs.Files.Paths
import SchemaClient.Proofs.Generation.Cleaning
import SchemaClient.Proofs.Generation.Runs
import SchemaClient.Proofs.Generation.Writing
import SchemaClient.Proofs.Json.Grammar
import SchemaClient.Proofs.Json.Reading
import SchemaClient.Proofs.Json.WrittenText
import SchemaClient.Proofs.Names.Claims
import SchemaClient.Proofs.Names.FirstFree
import SchemaClient.Proofs.Names.Legal
import SchemaClient.Proofs.Names.Spelling
import SchemaClient.Proofs.Operation.BoundVariables
import SchemaClient.Proofs.Operation.CustomSelection
import SchemaClient.Proofs.Operation.DocumentReader
import SchemaClient.Proofs.Operation.DocumentWords
import SchemaClient.Proofs.Operation.Expansion
import SchemaClient.Proofs.Operation.Indentation
import SchemaClient.Proofs.Operation.Layouts
import SchemaClient.Proofs.Operation.Reordering
import SchemaClient.Proofs.Outcomes
import SchemaClient.Proofs.Schema.Indices
import SchemaClient.Proofs.Schema.JsonForm
import SchemaClient.Proofs.Schema.Lookups
import SchemaClient.Proofs.Schema.TypeExpressions
import SchemaClient.Proofs.Source.Announcement
import SchemaClient.Proofs.Source.BlockText
import SchemaClient.Proofs.Source.Bodiless
import SchemaClient.Proofs.Source.Comments
import SchemaClient.Proofs.Source.Constants
import SchemaClient.Proofs.Source.Defaults
import SchemaClient.Proofs.Source.Directives
import SchemaClient.Proofs.Source.Encodings
import SchemaClient.Proofs.Source.EntryScan
import SchemaClient.Proofs.Source.Grammar
import SchemaClient.Proofs.Source.HeaderScan
import SchemaClient.Proofs.Source.Marks
import SchemaClient.Proofs.Source.MatchingBraces
import SchemaClient.Proofs.Source.Noise
import SchemaClient.Proofs.Source.RoundTrip
import SchemaClient.Proofs.Source.Spacing
import SchemaClient.Proofs.Source.WellFormed
import SchemaClient.Proofs.Text.Characters
import SchemaClient.Proofs.Text.Delimited
import SchemaClient.Proofs.Text.Encodings
import SchemaClient.Proofs.Text.LetterCase
import SchemaClient.Proofs.Text.Scanning
import SchemaClient.Schema.Codec
import SchemaClient.Schema.Definition
import SchemaClient.Schema.Model
import SchemaClient.Schema.Scalar
import SchemaClient.Schema.TypeRef
import SchemaClient.Source.Analysis
import SchemaClient.Source.Block
import SchemaClient.Source.Encoding
import SchemaClient.Source.Entry
import SchemaClient.Source.Header
import SchemaClient.Source.Normal
import SchemaClient.Text.Alphabet
import SchemaClient.Text.Blank
import SchemaClient.Text.CaseTable
import SchemaClient.Text.CodeRange
import SchemaClient.Text.LetterCase
import SchemaClient.Text.Line
import SchemaClient.Text.Printable
import SchemaClient.Text.Scan
import SchemaClient.Text.Utf16
import SchemaClient.Text.Utf8
import SchemaClient.Proofs.Names.WordCuts
import SchemaClient.Proofs.Source.NoiseShapes
import SchemaClient.Proofs.Source.Normalised
import SchemaClient.Proofs.Source.PlainFields
