import TableAccess.Checker
import TableAccess.CommandLine.Request
import TableAccess.CommandLine.Run
import TableAccess.CommandLine.Scan
import TableAccess.Config
import TableAccess.Config.Load
import TableAccess.Config.Overlay
import TableAccess.Config.Path
import TableAccess.Config.Validation
import TableAccess.Config.Variables
import TableAccess.Datum
import TableAccess.Datum.Reading
import TableAccess.Datum.Writing
import TableAccess.Decimal
import TableAccess.Decimal.Positional
import TableAccess.Decimal.Shortest
import TableAccess.EnvFile
import TableAccess.EnvFile.Lines
import TableAccess.EnvFile.Value
import TableAccess.Error
import TableAccess.FileTree
import TableAccess.Host
import TableAccess.Identity
import TableAccess.Json.Document
import TableAccess.Main
import TableAccess.Permission
import TableAccess.Permission.Set
import TableAccess.Proofs.Account
import TableAccess.Proofs.Agreement
import TableAccess.Proofs.Alongside
import TableAccess.Proofs.Answers
import TableAccess.Proofs.ConfiguredScopes
import TableAccess.Proofs.Decision
import TableAccess.Proofs.Exit
import TableAccess.Proofs.FailFast
import TableAccess.Proofs.FirstFault
import TableAccess.Proofs.Isolation
import TableAccess.Proofs.Keys
import TableAccess.Proofs.Layers
import TableAccess.Proofs.LetterCase
import TableAccess.Proofs.Listing
import TableAccess.Proofs.Members
import TableAccess.Proofs.Memory
import TableAccess.Proofs.OneSetting
import TableAccess.Proofs.Orders
import TableAccess.Proofs.Override
import TableAccess.Proofs.PerTable
import TableAccess.Proofs.PermissionHistory
import TableAccess.Proofs.PermissionName
import TableAccess.Proofs.Precedence
import TableAccess.Proofs.Query
import TableAccess.Proofs.Relevance
import TableAccess.Proofs.Repeats
import TableAccess.Proofs.RoundTrip
import TableAccess.Proofs.RowFilter
import TableAccess.Proofs.SameScopes
import TableAccess.Proofs.ScopeText
import TableAccess.Proofs.Search
import TableAccess.Proofs.Startup
import TableAccess.Proofs.Steady
import TableAccess.Proofs.StoreHistory
import TableAccess.Proofs.StoreMap
import TableAccess.Proofs.Tree
import TableAccess.Proofs.Validity
import TableAccess.Proofs.VariableText
import TableAccess.Proofs.Verdict
import TableAccess.Proofs.Widening
import TableAccess.Resolution
import TableAccess.Role
import TableAccess.Scope
import TableAccess.Sources
import TableAccess.Store
import TableAccess.Text
import TableAccess.Text.Alphanumeric
import TableAccess.Text.Bytes
import TableAccess.Text.Mark
import TableAccess.Text.Parts
import TableAccess.Toml.Document
import TableAccess.Toml.Moment
import TableAccess.Toml.Node
import TableAccess.Toml.Scalar
import TableAccess.Toml.Token
import TableAccess.UserAccess
