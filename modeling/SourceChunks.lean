import SourceChunks.Calls
import SourceChunks.Chunk
import SourceChunks.Chunk.Form
import SourceChunks.Chunk.OfTree
import SourceChunks.Chunk.Stats
import SourceChunks.Chunker
import SourceChunks.Complexity.Cognitive
import SourceChunks.Complexity.Cyclomatic
import SourceChunks.Complexity.Halstead
import SourceChunks.Complexity.Rules
import SourceChunks.Decimal.Fixed
import SourceChunks.Error
import SourceChunks.Imports
import SourceChunks.Json
import SourceChunks.Json.Number
import SourceChunks.Json.Reader
import SourceChunks.Language
import SourceChunks.Language.CSharp
import SourceChunks.Language.Go
import SourceChunks.Language.Java
import SourceChunks.Language.JavaScript
import SourceChunks.Language.Php
import SourceChunks.Language.Python
import SourceChunks.Language.Registry
import SourceChunks.Language.Rust
import SourceChunks.Language.TypeScript
import SourceChunks.Options
import SourceChunks.Options.Form
import SourceChunks.Outline
import SourceChunks.Path
import SourceChunks.Symbol
import SourceChunks.Symbol.Form
import SourceChunks.Symbol.Name
import SourceChunks.Symbol.Signature
import SourceChunks.Template
import SourceChunks.Template.Block
import SourceChunks.Template.Mask
import SourceChunks.Template.Tag
import SourceChunks.Text.Blank
import SourceChunks.Text.Grapheme
import SourceChunks.Text.Grapheme.Classes
import SourceChunks.Text.Lines
import SourceChunks.Text.Split
import SourceChunks.Text.Uppercase
import SourceChunks.Toml
import SourceChunks.Toml.Reader
import SourceChunks.Toml.Scalar
import SourceChunks.Tree
import SourceChunks.Windows
import SourceChunks.Proofs.Chunk
import SourceChunks.Proofs.Text.Lines
import SourceChunks.Proofs.Chunk.Coverage
import SourceChunks.Proofs.Outline
import SourceChunks.Proofs.Chunk.Lines
import SourceChunks.Proofs.Calls
import SourceChunks.Proofs.Chunk.Calls
import SourceChunks.Proofs.Calls.Search
import SourceChunks.Proofs.Template.Block
import SourceChunks.Proofs.Template.Mask
import SourceChunks.Proofs.Template.Coverage
import SourceChunks.Proofs.Template.Imports
import SourceChunks.Proofs.Template.Tag
import SourceChunks.Proofs.Imports
import SourceChunks.Proofs.Outline.Order
import SourceChunks.Proofs.Comments
import SourceChunks.Proofs.Imports.Comments
import SourceChunks.Proofs.Outline.Extension
import SourceChunks.Proofs.Chunk.Metadata
import SourceChunks.Proofs.Text.Blank
import SourceChunks.Proofs.Symbol
import SourceChunks.Proofs.Json
import SourceChunks.Proofs.Chunk.Form
import SourceChunks.Proofs.Windows.Shape
import SourceChunks.Proofs.Template.Pairing
import SourceChunks.Proofs.Outline.Binding
import SourceChunks.Proofs.Text.Split
import SourceChunks.Proofs.Text.Printed
import SourceChunks.Proofs.Imports.UseTrees
import SourceChunks.Proofs.Imports.QualifiedNames
import SourceChunks.Proofs.Imports.UseClauses
import SourceChunks.Proofs.Language.Registry
import SourceChunks.Proofs.Chunker
import SourceChunks.Proofs.Complexity.Cognitive
import SourceChunks.Proofs.Complexity.ElseIf
import SourceChunks.Proofs.Complexity.Members
import SourceChunks.Proofs.Complexity.Halstead
import SourceChunks.Proofs.Exports.ItemOrder
import SourceChunks.Proofs.Exports.Bindings
import SourceChunks.Proofs.Exports.Visibility
import SourceChunks.Proofs.Exports.Annotations
import SourceChunks.Proofs.Exports.TopLevel
import SourceChunks.Proofs.Text.Collapse
import SourceChunks.Proofs.Symbol.Signature
import SourceChunks.Proofs.Chunk.Content
import SourceChunks.Proofs.Options
import SourceChunks.Proofs.Windows.Runs
import SourceChunks.Proofs.Template.Bytes
import SourceChunks.Proofs.Tree.Walk
