import IntraCloud.Analytics.Proofs.GroupOrderProofs
import IntraCloud.Exports.Buckets
import IntraCloud.Analytics.Proofs.ReportingProofs
import IntraCloud.Databases.Proofs.TableViewProofs
import IntraCloud.JavaScript.Requests
import IntraCloud.Databases.TableView
import IntraCloud.Analytics.Reporting
import IntraCloud.Statistics.Proofs.SamplesProofs
import IntraCloud.Analytics.Proofs.OperationsProofs
import IntraCloud.Analytics.Profile
import IntraCloud.Relational.Grouping
import IntraCloud.Analytics.Proofs.RegistryProofs
import IntraCloud.Analytics.Registry
import IntraCloud.Analytics.Operations
import IntraCloud.Statistics.Samples
import IntraCloud.Databases.Proofs.RowEditorProofs
import IntraCloud.Databases.RowEditor
import IntraCloud.JavaScript.Proofs.NumbersProofs
import IntraCloud.JavaScript.Numbers
import IntraCloud.Python.Proofs.DatetimeProofs
import IntraCloud.System.Proofs.ScratchObjectsProofs
import IntraCloud.Accounts.Proofs.RegistrationProofs
import IntraCloud.Exports.Proofs.SlugsProofs
import IntraCloud.Accounts.Proofs.OneTimeCodesProofs
import IntraCloud.Python.Proofs.Base32Proofs
import IntraCloud.Accounts.OneTimeCodes
import IntraCloud.Python.Base32
import IntraCloud.Installer.Proofs.ArgumentsProofs
import IntraCloud.Installer.Arguments
import IntraCloud.Imports.Proofs.InferProofs
import IntraCloud.Python.Proofs.FloatsProofs
import IntraCloud.Imports.Infer
import IntraCloud.Python.Floats
import IntraCloud.Analytics.Proofs.PairedProofs
import IntraCloud.Analytics.Paired
import IntraCloud.Relational.Pairing
import IntraCloud.Storage.Proofs.ChunksProofs
import IntraCloud.Storage.Chunks
import IntraCloud.Imports.Proofs.EncodingProofs
import IntraCloud.Python.Proofs.CutsProofs
import IntraCloud.Databases.Proofs.SearchingProofs
import IntraCloud.Relational.Like
import IntraCloud.Databases.Proofs.ListingProofs
import IntraCloud.Databases.Listing
import IntraCloud.Relational.Paging
import IntraCloud.Databases.Proofs.DomainsProofs
import IntraCloud.Databases.Domains
import IntraCloud.Exports.Proofs.ContainerErrorsProofs
import IntraCloud.Python.Proofs.JsonErrorsProofs
import IntraCloud.Python.JsonErrors
import IntraCloud.Exports.ContainerErrors
import IntraCloud.Exports.Proofs.RestorerProofs
import IntraCloud.Storage.Proofs.TreeProofs
import IntraCloud.Storage.Tree
import IntraCloud.Relational.Forest
import IntraCloud.System.Proofs.CellsProofs
import IntraCloud.System.Cells
import IntraCloud.Analytics.Services
import IntraCloud.Databases.Proofs.ExplorerProofs
import IntraCloud.Databases.Explorer
import IntraCloud.Relational.References
import IntraCloud.System.Contents
import IntraCloud.System.Proofs.ContentsProofs
import IntraCloud.System.Proofs.ThrottlingProofs
import IntraCloud.Transition.Proofs.RunsProofs
import IntraCloud.Transition.Runs
import IntraCloud.System.Throttling
import IntraCloud.System.Proofs.RestorableProofs
import IntraCloud.System.Proofs.BackupsProofs
import IntraCloud.System.Backups
import IntraCloud.Databases.Proofs.ConnectorsProofs
import IntraCloud.Databases.Connectors
import IntraCloud.Applications.Proofs.CredentialsProofs
import IntraCloud.Applications.Services
import IntraCloud.Accounts.Proofs.SessionsProofs
import IntraCloud.Accounts.Views
import IntraCloud.Python.Proofs.UuidProofs
import IntraCloud.Exports.Proofs.RowOrderProofs
import IntraCloud.Databases.Proofs.DistinctProofs
import IntraCloud.Relational.Insertion
import IntraCloud.Imports.Proofs.InspectProofs
import IntraCloud.Python.Proofs.LinesProofs
import IntraCloud.Python.Proofs.CsvLinesProofs
import IntraCloud.Imports.Inspect
import IntraCloud.Exports.Proofs.ScanProofs
import IntraCloud.Databases.Proofs.ValuesProofs
import IntraCloud.Databases.Values
import IntraCloud.Storage.Proofs.QuarantineProofs
import IntraCloud.Imports.Proofs.SourceFileProofs
import IntraCloud.Imports.SourceFile
import IntraCloud.Storage.Proofs.ConcurrentProofs
import IntraCloud.Storage.Concurrent
import IntraCloud.Storage.Services
import IntraCloud.System.Proofs.JobsProofs
import IntraCloud.Exports.Proofs.JobsProofs
import IntraCloud.Exports.Jobs
import IntraCloud.Transition.Tasks
import IntraCloud.Imports.Proofs.FaultsProofs
import IntraCloud.System.Proofs.GatewayProofs
import IntraCloud.Python.Proofs.CsvProofs
import IntraCloud.Exports.Proofs.AtomicityProofs
import IntraCloud.Exports.Atomicity
import IntraCloud.Exports.Restorer
import IntraCloud.Relational.Proofs.TransactionsProofs
import IntraCloud.Relational.Rounds
import IntraCloud.Exports.Proofs.AcceptanceProofs
import IntraCloud.Exports.Proofs.BuilderProofs
import IntraCloud.Python.Proofs.JsonValueProofs
import IntraCloud.Exports.Builder
import IntraCloud.Exports.Schema
import IntraCloud.Exports.Proofs.PackageProofs
import IntraCloud.Exports.Package
import IntraCloud.Exports.Proofs.ContainerProofs
import IntraCloud.Exports.Container
import IntraCloud.Python.Proofs.CodecsProofs
import IntraCloud.Python.Codecs
import IntraCloud.Python.Proofs.JsonProofs
import IntraCloud.Python.JsonText
import IntraCloud.Exports.Proofs.FidelityProofs
import IntraCloud.System.Proofs.SuperAdministratorProofs
import IntraCloud.System.Proofs.ProvenanceProofs
import IntraCloud.System.Proofs.AuthorityProofs
import IntraCloud.System.Authority
import IntraCloud.Organizations.Proofs.DirectoryProofs
import IntraCloud.Exports.Proofs.MembershipsProofs
import IntraCloud.Organizations.Proofs.ServicesProofs
import IntraCloud.Exports.Memberships
import IntraCloud.Organizations.Services
import IntraCloud.Imports.Proofs.LedgerProofs
import IntraCloud.System.Proofs.AuditProofs
import IntraCloud.Python.Uuid
import IntraCloud.Databases.Connections
import IntraCloud.Databases.Proofs.ForeignKeyProofs
import IntraCloud.Databases.Proofs.ConcurrentProofs
import IntraCloud.Python.Numbers
import IntraCloud.Permissions.Services
import IntraCloud.Sharing.Proofs.SoundnessProofs
import IntraCloud.Imports.Attempts
import IntraCloud.Imports.Proofs.AttemptsProofs
import IntraCloud.Databases.Rows
import IntraCloud.Exports.Scan
import IntraCloud.Accounts.Proofs.MfaProofs
import IntraCloud.Analytics.Proofs.ProfileProofs
import IntraCloud.Exports.Proofs.BucketsProofs
import IntraCloud.Exports.Cells
import IntraCloud.Exports.Proofs.CellsProofs
import IntraCloud.Exports.Proofs.SchemaRestoreProofs
import IntraCloud.Exports.Proofs.SchemaKeysProofs
import IntraCloud.Exports.Proofs.CatalogRoundTripProofs
import IntraCloud.Databases.Proofs.CoverageProofs
import IntraCloud.Exports.Proofs.AnyPackageProofs
import IntraCloud.System.Proofs.VerificationProofs
import IntraCloud.System.Proofs.TenantRoleProofs
import IntraCloud.System.Credentials
import IntraCloud.System.Proofs.CredentialsProofs
import IntraCloud.Statistics.Proofs.PercentilesProofs
import IntraCloud.Analytics.Proofs.CoherenceProofs
