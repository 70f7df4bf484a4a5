import Stencil.Json.Reader
import Stencil.Main
import Stencil.Model.Data
import Stencil.Proofs.Document.Kinds
import Stencil.Proofs.Document.Order
import Stencil.Proofs.Document.Spelling
import Stencil.Proofs.Document.Unrelated
import Stencil.Proofs.Document.Visibility
import Stencil.Proofs.Generate.Context
import Stencil.Proofs.Generate.Regenerate
import Stencil.Proofs.Model.QualifiedNames
import Stencil.Proofs.Prepare.Tagged
import Stencil.Proofs.Prepare.VisitedNames
import Stencil.Proofs.Rules.Schema
import Stencil.Proofs.Spelling.Endless
import Stencil.Proofs.Spelling.Mappable
import Stencil.Proofs.Document.Records
import Stencil.Proofs.Document.UnknownKeys
import Stencil.Proofs.Document.Merging
import Stencil.Proofs.Spelling.Conforming
import Stencil.Proofs.Spelling.FieldNames
import Stencil.Proofs.Spelling.TextLiterals
import Stencil.Proofs.Spelling.NormalForm
import Stencil.Proofs.Json.Updates
import Stencil.Proofs.Spelling.SimulationData
import Stencil.Proofs.Spelling.Zones
import Stencil.Proofs.Spelling.TestValues
import Stencil.Proofs.Spelling.Declarations
import Stencil.Proofs.Generate.LegacyFiles
import Stencil.Proofs.Generate.FilterLoading
import Stencil.Proofs.Rules.Respelling
import Stencil.Proofs.Report.Trail
import Stencil.Proofs.Generate.Accounts
import Stencil.Proofs.Prepare.Validation
import Stencil.Proofs.Spelling.QmlNames
import Stencil.Proofs.Spelling.CommentLines
import Stencil.Proofs.Document.UnquotedVersions
import Stencil.Proofs.Files.PathOrder
import Stencil.Proofs.Files.Descents
import Stencil.Proofs.Document.Scans
import Stencil.Proofs.Files.FileNames
import Stencil.Proofs.Generate.Discovery
import Stencil.Proofs.Model.MergedPaths
import Stencil.Proofs.Spelling.StructIncludes
import Stencil.Proofs.Model.TagLaws
import Stencil.Proofs.Prepare.ModuleIndex
