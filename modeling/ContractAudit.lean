import ContractAudit.Command.Run
import ContractAudit.Document.Json
import ContractAudit.Json.Reader
import ContractAudit.Main
import ContractAudit.Proofs.Audit.Footprint
import ContractAudit.Proofs.Audit.ReportStructure
import ContractAudit.Proofs.Flow.References
import ContractAudit.Proofs.Impact.Completeness
import ContractAudit.Proofs.Pattern.Neighbours
import ContractAudit.Proofs.Evidence.OpenEnds
import ContractAudit.Proofs.Audit.Existence
import ContractAudit.Proofs.Audit.DeclaredLines
import ContractAudit.Proofs.Audit.GrowingFiles
import ContractAudit.Proofs.Audit.AddedLines
import ContractAudit.Proofs.Audit.Dependence
import ContractAudit.Proofs.Audit.LineEnds
import ContractAudit.Proofs.Audit.Reordering
import ContractAudit.Proofs.Impact.FlowAgreement
import ContractAudit.Proofs.Impact.Conservation
import ContractAudit.Proofs.Text.CaseVariants
import ContractAudit.Proofs.Pattern.Pieces
import ContractAudit.Proofs.Evidence.TableCreation
import ContractAudit.Proofs.Audit.TableExistence
import ContractAudit.Proofs.Evidence.EmptyNames
import ContractAudit.Proofs.Audit.EmptyNames
import ContractAudit.Proofs.Audit.FilePresence
import ContractAudit.Proofs.Impact.ReadingBack
import ContractAudit.Proofs.Document.ReadingBack
import ContractAudit.Proofs.Audit.ReportLines
import ContractAudit.Proofs.Document.BareScalars
import ContractAudit.Proofs.Log.ReportMirror
import ContractAudit.Proofs.Document.FieldOrder
import ContractAudit.Proofs.Command.ExitCodes
import ContractAudit.Proofs.Audit.EdgePolicy
import ContractAudit.Proofs.Audit.EventEvidence
import ContractAudit.Proofs.Evidence.NodeNotation
import ContractAudit.Proofs.Audit.LongerIdentifiers
import ContractAudit.Proofs.Audit.CallStatements
import ContractAudit.Proofs.Pattern.Recasing
import ContractAudit.Proofs.Audit.Recasing
import ContractAudit.Proofs.Evidence.Routes
import ContractAudit.Proofs.Audit.Routes
import ContractAudit.Proofs.Audit.TableAccess
import ContractAudit.Proofs.Flow.StrayArms
import ContractAudit.Proofs.Flow.MissingNodes
import ContractAudit.Proofs.Audit.InvariantScopes
import ContractAudit.Proofs.Audit.FurtherChecks
import ContractAudit.Proofs.Location.ReadingBack
import ContractAudit.Proofs.Location.ShownPaths
import ContractAudit.Proofs.Report.Colour
import ContractAudit.Proofs.Document.Discovery
import ContractAudit.Proofs.Evidence.ForeignKeys
import ContractAudit.Proofs.Audit.AsciiLines
import ContractAudit.Proofs.Evidence.Windows
