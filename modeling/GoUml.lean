import GoUml.Catalog
import GoUml.Command.Arguments
import GoUml.Command.Config
import GoUml.Command.Run
import GoUml.Diagram.Class
import GoUml.Diagram.Element
import GoUml.Diagram.Layout
import GoUml.Diagram.Package
import GoUml.Edge
import GoUml.Entity
import GoUml.Extraction
import GoUml.Files.Path
import GoUml.Files.RawText
import GoUml.Files.Tree
import GoUml.Go.Grammar.Basic
import GoUml.Go.Grammar.Expressions
import GoUml.Go.Grammar.File
import GoUml.Go.Grammar.Statements
import GoUml.Go.Grammar.Types
import GoUml.Go.ImportPath
import GoUml.Go.Lexeme
import GoUml.Go.Loader
import GoUml.Go.Module
import GoUml.Go.Resolution
import GoUml.Go.Source
import GoUml.Go.Token
import GoUml.Identifiers
import GoUml.Implementation
import GoUml.ImportGraph
import GoUml.Json.Basic
import GoUml.Json.Parser
import GoUml.Json.Printer
import GoUml.Json.Record
import GoUml.Load.Error
import GoUml.Load.Model
import GoUml.Load.Selection
import GoUml.Main
import GoUml.MethodSet
import GoUml.Metrics
import GoUml.Model.Basic
import GoUml.Model.Reader
import GoUml.Model.Writer
import GoUml.Naming
import GoUml.Options
import GoUml.Proofs.Aggregation
import GoUml.Proofs.AliasLeaves
import GoUml.Proofs.Ambiguity
import GoUml.Proofs.Anchoring
import GoUml.Proofs.AverageTime
import GoUml.Proofs.Capture
import GoUml.Proofs.Comments
import GoUml.Proofs.Contents
import GoUml.Proofs.Correspondence
import GoUml.Proofs.Delimited
import GoUml.Proofs.Discovery
import GoUml.Proofs.Drawing
import GoUml.Proofs.EmbedOrder
import GoUml.Proofs.EmbeddingDepth
import GoUml.Proofs.FileCounts
import GoUml.Proofs.Files
import GoUml.Proofs.Filing
import GoUml.Proofs.FirstFailure
import GoUml.Proofs.Identifiers
import GoUml.Proofs.Implementation
import GoUml.Proofs.ImportArrows
import GoUml.Proofs.ImportGraph
import GoUml.Proofs.Indentation
import GoUml.Proofs.JsonText
import GoUml.Proofs.Labels
import GoUml.Proofs.LoadOrder
import GoUml.Proofs.Loading
import GoUml.Proofs.MethodSet
import GoUml.Proofs.ModelText
import GoUml.Proofs.ModulePath
import GoUml.Proofs.OptionTable
import GoUml.Proofs.OrderIndependence
import GoUml.Proofs.Ownership
import GoUml.Proofs.Parents
import GoUml.Proofs.Phrases
import GoUml.Proofs.Pointwise
import GoUml.Proofs.PromotedNames
import GoUml.Proofs.Promotion
import GoUml.Proofs.RawText
import GoUml.Proofs.Reading
import GoUml.Proofs.Receivers
import GoUml.Proofs.RelationLines
import GoUml.Proofs.Requirements
import GoUml.Proofs.Resolving
import GoUml.Proofs.Running
import GoUml.Proofs.Saving
import GoUml.Proofs.Shadowing
import GoUml.Proofs.Signature
import GoUml.Proofs.Sorting
import GoUml.Proofs.Splitting
import GoUml.Proofs.Table
import GoUml.Proofs.TypeKey
import GoUml.Proofs.Underlying
import GoUml.Proofs.Unquoted
import GoUml.Proofs.Visibility
import GoUml.Table
import GoUml.Text.Basic
import GoUml.Text.Identifier
import GoUml.Text.Lowercase
import GoUml.Toml.Basic
import GoUml.Toml.Document
import GoUml.Toml.Parser
import GoUml.Toml.Scalar
