import ChangeImpact.NameSet
import ChangeImpact.Text.Affix
import ChangeImpact.Text.Raw
import ChangeImpact.Graph.Basic
import ChangeImpact.Graph.Cycle
import ChangeImpact.Graph.CycleSearch
import ChangeImpact.Graph.Impact
import ChangeImpact.Graph.Selection
import ChangeImpact.Graph.Projection
import ChangeImpact.Graph.Analysis
import ChangeImpact.Json.Basic
import ChangeImpact.Advisory.Prompt
import ChangeImpact.Text.Letters
import ChangeImpact.Java.Token
import ChangeImpact.Java.Lexer
import ChangeImpact.Java.Parser
import ChangeImpact.Java.Declaration
import ChangeImpact.Java.Grammar.Basic
import ChangeImpact.Java.Grammar.Type
import ChangeImpact.Java.Grammar.Expression
import ChangeImpact.Java.Grammar.Declaration
import ChangeImpact.Java.Grammar.Statement
import ChangeImpact.Java.Source
import ChangeImpact.Text.Blank
import ChangeImpact.Path
import ChangeImpact.FileTree.Basic
import ChangeImpact.FileTree.Sources
import ChangeImpact.Java.SourceUnit
import ChangeImpact.Java.Extraction
import ChangeImpact.Project.Build
import ChangeImpact.Project.Changes
import ChangeImpact.Yaml.Token
import ChangeImpact.Yaml.Cursor
import ChangeImpact.Yaml.Scalar
import ChangeImpact.Yaml.Property
import ChangeImpact.Yaml.Lexer
import ChangeImpact.Yaml.Node
import ChangeImpact.Project.Config
import ChangeImpact.Json.Reader
import ChangeImpact.Advisory.Duration
import ChangeImpact.Advisory.Advisor
import ChangeImpact.Advisory.Chat
import ChangeImpact.Text.Style
import ChangeImpact.Text.Timestamp
import ChangeImpact.Text.Sink
import ChangeImpact.Project.Report
import ChangeImpact.Project.Run
import ChangeImpact.Project.Summary
import ChangeImpact.CommandLine
import ChangeImpact.Text.Lossy
import ChangeImpact.Main
import ChangeImpact.Proofs.NameOrder
import ChangeImpact.Proofs.Graph.Walk
import ChangeImpact.Proofs.Graph.BreadthFirst
import ChangeImpact.Proofs.Graph.SearchTree
import ChangeImpact.Proofs.Graph.Impact
import ChangeImpact.Proofs.Graph.Store
import ChangeImpact.Proofs.Project.Build
import ChangeImpact.Proofs.Graph.Selection
import ChangeImpact.Proofs.Project.TestSelection
import ChangeImpact.Proofs.Graph.ClosedWalk
import ChangeImpact.Proofs.Graph.DepthFirst
import ChangeImpact.Proofs.Graph.CycleSearch
import ChangeImpact.Proofs.Graph.Observation
import ChangeImpact.Proofs.Graph.Exclusion
import ChangeImpact.Proofs.Graph.Refinement
import ChangeImpact.Proofs.Project.Files
import ChangeImpact.Proofs.Project.ChangedFiles
import ChangeImpact.Proofs.Java.Extraction
import ChangeImpact.Proofs.Graph.ImpactClosure
import ChangeImpact.Proofs.Json.RoundTrip
import ChangeImpact.Proofs.Project.Documents
import ChangeImpact.Proofs.Java.Lexing
import ChangeImpact.Proofs.Java.Outline
import ChangeImpact.Proofs.Java.Reading
import ChangeImpact.Proofs.Java.OutlineRules
import ChangeImpact.Proofs.Java.OutlineReading
import ChangeImpact.Proofs.Java.Recovery
import ChangeImpact.Proofs.Graph.RecursiveSearch
import ChangeImpact.Proofs.Graph.Examination
import ChangeImpact.Proofs.Graph.Projection
import ChangeImpact.Proofs.Project.ReportCoherence
import ChangeImpact.Proofs.Graph.Deletion
import ChangeImpact.Proofs.Graph.CanonicalForm
import ChangeImpact.Proofs.Graph.Justification
import ChangeImpact.Proofs.Project.ImportReferences
import ChangeImpact.Proofs.Project.BuildAccount
import ChangeImpact.Proofs.Java.TypeNames
import ChangeImpact.Proofs.Project.TestMap
import ChangeImpact.Proofs.Java.TypeSyntax
import ChangeImpact.Proofs.Java.TypeReading
import ChangeImpact.Proofs.Text.Pieces
import ChangeImpact.Proofs.Path
import ChangeImpact.Proofs.Project.ListedFiles
import ChangeImpact.Proofs.Project.Display
import ChangeImpact.Proofs.Json.Lines
import ChangeImpact.Proofs.Advisory.Prompt
import ChangeImpact.Proofs.FileTree.Resolution
import ChangeImpact.Proofs.FileTree.Sources
import ChangeImpact.Proofs.Graph.SearchInvariant
import ChangeImpact.Proofs.Graph.WatchedSearch
