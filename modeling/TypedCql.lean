import TypedCql.Codec.Document
import TypedCql.Codec.Fields
import TypedCql.Codec.MappingFile
import TypedCql.Codec.Statement
import TypedCql.Codec.Value
import TypedCql.ColumnType.Basic
import TypedCql.ColumnType.Parser
import TypedCql.Cql.Draft
import TypedCql.Cql.Fragment
import TypedCql.Cql.Identifier
import TypedCql.Cql.Statement
import TypedCql.Decimal.Layout
import TypedCql.Decimal.Shortest
import TypedCql.Drafting.Command
import TypedCql.Drafting.Compile
import TypedCql.Drafting.Parts
import TypedCql.Drafting.Statement
import TypedCql.Error
import TypedCql.Expr.Basic
import TypedCql.Expr.Debug
import TypedCql.Expr.Evaluate
import TypedCql.Expr.Operator
import TypedCql.Json.Basic
import TypedCql.Json.Number
import TypedCql.Json.Reader
import TypedCql.Mapping.Basic
import TypedCql.Mapping.Column
import TypedCql.Mapping.Definition
import TypedCql.Mapping.File
import TypedCql.Mapping.Index
import TypedCql.Mapping.Registry
import TypedCql.Mapping.TableMap
import TypedCql.Proofs.Assignments
import TypedCql.Proofs.CanonicalTypes
import TypedCql.Proofs.Chains
import TypedCql.Proofs.Conjunctions
import TypedCql.Proofs.Disjunctions
import TypedCql.Proofs.Legibility
import TypedCql.Proofs.Placeholders
import TypedCql.Proofs.Projections
import TypedCql.Proofs.Readings
import TypedCql.Proofs.Registry
import TypedCql.Proofs.Reordering
import TypedCql.Proofs.Symbols
import TypedCql.Proofs.TypeReading
import TypedCql.Query.Batch
import TypedCql.Query.Chain
import TypedCql.Query.Command
import TypedCql.Query.Compile
import TypedCql.Query.Parts
import TypedCql.Query.Phase
import TypedCql.Query.Scope
import TypedCql.Query.Table
import TypedCql.Session.Basic
import TypedCql.Statement.Change
import TypedCql.Statement.Clause
import TypedCql.Statement.Create
import TypedCql.Statement.Insert
import TypedCql.Statement.Select
import TypedCql.Text.Alphanumeric
import TypedCql.Text.Blank
import TypedCql.Text.CharSet
import TypedCql.Text.Enclosed
import TypedCql.Text.Hidden
import TypedCql.Text.Quoted
import TypedCql.Timestamp.Basic
import TypedCql.Timestamp.Calendar
import TypedCql.Timestamp.Text
import TypedCql.Toml.Basic
import TypedCql.Toml.MappingFile
import TypedCql.Toml.Reader
import TypedCql.Toml.Section
import TypedCql.Toml.Token
import TypedCql.Traced
import TypedCql.Uuid
import TypedCql.Value.Basic
import TypedCql.Value.Debug
import TypedCql.Value.Literal
import TypedCql.Value.Order
import TypedCql.Value.ToValue
import TypedCql.Proofs.Batches
import TypedCql.Proofs.Keys
import TypedCql.Proofs.Literals
import TypedCql.Proofs.QuotedNames
import TypedCql.Proofs.Templates
import TypedCql.Proofs.Variants
import TypedCql.Proofs.Renaming
import TypedCql.Proofs.Identifiers
import TypedCql.Proofs.Resolution
import TypedCql.Proofs.AssignmentKinds
import TypedCql.Proofs.TableCreation
import TypedCql.Proofs.TableSchemas
import TypedCql.Proofs.JoinedConditions
import TypedCql.Proofs.ThreeWay
import TypedCql.Proofs.Counters
import TypedCql.Proofs.Insertions
import TypedCql.Proofs.ExactArithmetic
import TypedCql.Proofs.FileOrder
import TypedCql.Proofs.RegistryFrame
import TypedCql.Proofs.Restatement
import TypedCql.Proofs.Folding
import TypedCql.Proofs.Growth
import TypedCql.Proofs.Digits
import TypedCql.Proofs.JsonReading
import TypedCql.Proofs.UuidReading
import TypedCql.Proofs.Calendar
import TypedCql.Proofs.TimestampReading
import TypedCql.Proofs.ValueReading
import TypedCql.Proofs.StatementReading
import TypedCql.Proofs.FileReading
import TypedCql.Proofs.RoundTrips
import TypedCql.Proofs.DraftedWalk
import TypedCql.Proofs.DraftedStatements
import TypedCql.Proofs.DraftedCommands
import TypedCql.Proofs.MappingIndex
