import ImportFence.Text.Split
import ImportFence.Text.WhiteSpace
import ImportFence.Path.Basic
import ImportFence.Path.Module
import ImportFence.Glob
import ImportFence.Sorted
import ImportFence.Suppression
import ImportFence.Tag
import ImportFence.Toml.Value
import ImportFence.Toml.Quoted
import ImportFence.Toml.Document
import ImportFence.Toml.Reader
import ImportFence.Config.Basic
import ImportFence.Config.Edit
import ImportFence.Config.Reader
import ImportFence.Config.Writer
import ImportFence.Source.Name
import ImportFence.Source.Token.Basic
import ImportFence.Source.Token.Literal
import ImportFence.Source.Token.Scan
import ImportFence.Source.Reader
import ImportFence.Source.Expression
import ImportFence.Import
import ImportFence.Source.Statement
import ImportFence.Source.Pattern
import ImportFence.Source.Block
import ImportFence.Source.Imports
import ImportFence.Package
import ImportFence.Graph
import ImportFence.Check
import ImportFence.Sync
import ImportFence.Report
import ImportFence.Json
import ImportFence.Command.Json
import ImportFence.Path.Ancestors
import ImportFence.FileTree
import ImportFence.Ignore.Pattern
import ImportFence.Ignore.Rule
import ImportFence.Ignore.Files
import ImportFence.Discovery
import ImportFence.Analysis
import ImportFence.Command.Arguments
import ImportFence.Command.Error
import ImportFence.Command.Settings
import ImportFence.Command.Hook
import ImportFence.Command.Output
import ImportFence.Command.Run
import ImportFence.Main
import ImportFence.Proofs.Sorted
import ImportFence.Proofs.Tag
import ImportFence.Proofs.Traversal
import ImportFence.Proofs.PackageTree
import ImportFence.Proofs.ConstraintSet
import ImportFence.Proofs.Orders
import ImportFence.Proofs.Check
import ImportFence.Proofs.ConfigEdit
import ImportFence.Proofs.Sync
import ImportFence.Proofs.SyncCheck
import ImportFence.Proofs.ImportGraph
import ImportFence.Proofs.QuotedText
import ImportFence.Proofs.TomlText
import ImportFence.Proofs.ConfigRoundTrip
import ImportFence.Proofs.FileOrder
import ImportFence.Proofs.Paths
import ImportFence.Proofs.ModuleNames
import ImportFence.Proofs.Declarations
import ImportFence.Proofs.Lookup
import ImportFence.Proofs.PackageView
import ImportFence.Proofs.Renumbering
import ImportFence.Proofs.DeclarationOrder
import ImportFence.Proofs.ModuleLookup
import ImportFence.Proofs.FirstFault
import ImportFence.Proofs.FileTree
import ImportFence.Proofs.SearchFrame
import ImportFence.Proofs.ConfigFile
import ImportFence.Proofs.SyncRun
import ImportFence.Proofs.FileLookup
import ImportFence.Proofs.PatchEffect
import ImportFence.Proofs.RelativeImports
import ImportFence.Proofs.Directive
import ImportFence.Proofs.Scanning
import ImportFence.Proofs.LiteralText
import ImportFence.Proofs.Readers
import ImportFence.Proofs.Nesting
import ImportFence.Proofs.Display
import ImportFence.Proofs.Expressions
import ImportFence.Proofs.ImportSyntax
import ImportFence.Proofs.SimpleStatements
import ImportFence.Proofs.StatementWalk
import ImportFence.Proofs.LinePieces
import ImportFence.Proofs.Headers
import ImportFence.Proofs.Outline
import ImportFence.Proofs.Blocks
import ImportFence.Proofs.ParsedSource
import ImportFence.Proofs.Addresses
import ImportFence.Proofs.SourceImports
import ImportFence.Proofs.GuardedImports
import ImportFence.Proofs.SuppressedImports
import ImportFence.Proofs.PublicInterface
import ImportFence.Proofs.PackageReports
import ImportFence.Proofs.PrunedSearch
import ImportFence.Proofs.Discovery
import ImportFence.Proofs.PathAncestors
import ImportFence.Proofs.ConfigSearch
import ImportFence.Proofs.ShellWords
import ImportFence.Proofs.CommitHook
import ImportFence.Proofs.TagSets
import ImportFence.Proofs.TagNumbering
