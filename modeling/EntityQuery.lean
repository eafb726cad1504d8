import EntityQuery.Dict
import EntityQuery.Text.Delimited
import EntityQuery.Text.Pieces
import EntityQuery.Text.Placeholder
import EntityQuery.Text.Quoted
import EntityQuery.Text.Trim
import EntityQuery.Text.Unsigned
import EntityQuery.Unicode.Classes
import EntityQuery.Json.Printer
import EntityQuery.Condition.Basic
import EntityQuery.Condition.Lexer
import EntityQuery.Condition.Parser
import EntityQuery.Condition.Renaming
import EntityQuery.Condition.Sql
import EntityQuery.Sql.Dialect
import EntityQuery.Catalog.Basic
import EntityQuery.Parameters
import EntityQuery.JoinGraph.Build
import EntityQuery.JoinGraph.Sql
import EntityQuery.Shape.Fold
import EntityQuery.Engine.Scripted
import EntityQuery.Statement.Select
import EntityQuery.Statement.Count
import EntityQuery.Statement.Insert
import EntityQuery.Statement.Update
import EntityQuery.Statement.Delete
import EntityQuery.Statement.Keyed
import EntityQuery.Toml.Document
import EntityQuery.Settings.Toml
import EntityQuery.Session
import EntityQuery.Proofs.Json.Injectivity
import EntityQuery.Proofs.Shape.Grouping
import EntityQuery.Proofs.Shape.Flattening
import EntityQuery.Proofs.JoinGraph.Coherence
import EntityQuery.Proofs.Condition.Rereading
import EntityQuery.Proofs.Condition.Acceptance
import EntityQuery.Proofs.Condition.Unambiguity
import EntityQuery.Proofs.JoinGraph.Operations
import EntityQuery.Proofs.Values.Graph
import EntityQuery.Proofs.Values.Statements
import EntityQuery.Proofs.Engine
import EntityQuery.Proofs.Values.Session
import EntityQuery.Proofs.Sql.Rendering
import EntityQuery.Proofs.JoinGraph.Lines
import EntityQuery.Proofs.JoinGraph.Tables
import EntityQuery.Proofs.Parameters.Bindings
import EntityQuery.Proofs.Parameters.Minting
import EntityQuery.Proofs.Statement.Assignments
import EntityQuery.Proofs.Statement.Mutations
import EntityQuery.Proofs.Statement.KeyConditions
import EntityQuery.Proofs.Statement.Keyed
import EntityQuery.Proofs.Shape.Nodes
import EntityQuery.Proofs.Statement.Choices
import EntityQuery.Proofs.Statement.Nesting
import EntityQuery.Proofs.Statement.Selection
import EntityQuery.Proofs.Condition.Naming
import EntityQuery.Proofs.JoinGraph.Closure
import EntityQuery.Proofs.Statement.Closure
import EntityQuery.Proofs.JoinGraph.References
import EntityQuery.Proofs.Shape.Reordering
import EntityQuery.Proofs.Condition.Values
import EntityQuery.Proofs.JoinGraph.Growth
import EntityQuery.Proofs.JoinGraph.Commutation
import EntityQuery.Proofs.JoinGraph.GivenNames
import EntityQuery.Proofs.Statement.AssignedNames
import EntityQuery.Proofs.Session.InTurn
import EntityQuery.Proofs.Condition.Mapping
import EntityQuery.Proofs.JoinGraph.Readings
import EntityQuery.Proofs.Spelling.Refusals
import EntityQuery.Proofs.Condition.LexicalErrors
import EntityQuery.Proofs.Condition.SyntaxErrors
import EntityQuery.Proofs.Statement.AssignedModel
import EntityQuery.Proofs.Condition.ColumnNames
import EntityQuery.Proofs.JoinGraph.Acceptance
import EntityQuery.Proofs.JoinGraph.DeclaredKeys
import EntityQuery.Proofs.Statement.Insertion
import EntityQuery.Proofs.Parameters.Calls
import EntityQuery.Proofs.Catalog.Declarations
import EntityQuery.Proofs.Settings.References
import EntityQuery.Proofs.Catalog.DataTypes
import EntityQuery.Proofs.Shape.Keys
