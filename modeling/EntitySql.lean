import EntitySql.Declaration.Annotation
import EntitySql.Declaration.Basic
import EntitySql.Declaration.Derive
import EntitySql.Declaration.Grammar.Basic
import EntitySql.Declaration.Grammar.Bound
import EntitySql.Declaration.Grammar.Expression
import EntitySql.Declaration.Grammar.Item
import EntitySql.Declaration.Grammar.Parameter
import EntitySql.Declaration.Grammar.Path
import EntitySql.Declaration.Grammar.Pattern
import EntitySql.Declaration.Grammar.Rules
import EntitySql.Declaration.Grammar.Statement
import EntitySql.Declaration.Grammar.Type
import EntitySql.Declaration.Keyword
import EntitySql.Declaration.Path
import EntitySql.Declaration.Reading
import EntitySql.Declaration.Token.Basic
import EntitySql.Declaration.Token.Numeral
import EntitySql.Declaration.Token.Quoted
import EntitySql.Declaration.Token.Reader
import EntitySql.Entity.Access
import EntitySql.Entity.Basic
import EntitySql.Error
import EntitySql.Expr.Assignment
import EntitySql.Expr.Basic
import EntitySql.Json.Basic
import EntitySql.Json.Printer
import EntitySql.Json.Reader
import EntitySql.Model.Basic
import EntitySql.Model.Index
import EntitySql.Model.Metadata
import EntitySql.Model.Registry
import EntitySql.Model.Tag
import EntitySql.Model.Visit
import EntitySql.Number.BigEndian
import EntitySql.Number.Binary
import EntitySql.Number.Integer
import EntitySql.Number.Shortest
import EntitySql.Postgres.Client
import EntitySql.Postgres.ColumnType
import EntitySql.Postgres.Connection
import EntitySql.Postgres.Parameter
import EntitySql.Postgres.RawCell
import EntitySql.Postgres.Server
import EntitySql.Postgres.Task
import EntitySql.Proofs.Entity.Access
import EntitySql.Proofs.Entity.RoundTrip
import EntitySql.Proofs.Entity.Shape
import EntitySql.Proofs.Model.Identity
import EntitySql.Proofs.Model.Index
import EntitySql.Proofs.Model.Reachable
import EntitySql.Proofs.Model.Traffic
import EntitySql.Proofs.Number.Widening
import EntitySql.Proofs.Postgres.Alone
import EntitySql.Proofs.Postgres.Discipline
import EntitySql.Proofs.Postgres.Exclusion
import EntitySql.Proofs.Postgres.Outlook
import EntitySql.Proofs.Postgres.Phase
import EntitySql.Proofs.Postgres.Progress
import EntitySql.Proofs.Postgres.Sharing
import EntitySql.Proofs.Session.Transparency
import EntitySql.Proofs.Session.Watched
import EntitySql.Proofs.Sql.Argument
import EntitySql.Proofs.Sql.Candidate
import EntitySql.Proofs.Sql.Composition
import EntitySql.Proofs.Sql.Condition
import EntitySql.Proofs.Sql.Demand
import EntitySql.Proofs.Sql.Frame
import EntitySql.Proofs.Sql.Identifier
import EntitySql.Proofs.Sql.Insertion
import EntitySql.Proofs.Sql.Lexeme
import EntitySql.Proofs.Sql.Masking
import EntitySql.Proofs.Sql.Placeholder
import EntitySql.Proofs.Sql.Reader.Grammar
import EntitySql.Proofs.Sql.Reader.Recovery
import EntitySql.Proofs.Sql.Reader.Token
import EntitySql.Proofs.Sql.Refusal
import EntitySql.Proofs.Sql.WellFormed
import EntitySql.Proofs.Value.RoundTrip
import EntitySql.Rehearsal.Database
import EntitySql.Rehearsal.Observation
import EntitySql.Rehearsal.Script
import EntitySql.Rehearsal.Server
import EntitySql.Rows
import EntitySql.Session.Basic
import EntitySql.Session.Database
import EntitySql.Session.Driver
import EntitySql.Session.Event
import EntitySql.Session.Interceptor
import EntitySql.Session.Outcome
import EntitySql.Session.Stats
import EntitySql.Sql.Builder
import EntitySql.Sql.Command
import EntitySql.Sql.Construction
import EntitySql.Sql.Dialect
import EntitySql.Sql.Emission
import EntitySql.Sql.Piece
import EntitySql.Sql.Query
import EntitySql.Sql.Resolution
import EntitySql.Text.Alphanumeric
import EntitySql.Text.Blank
import EntitySql.Text.Capital
import EntitySql.Text.ConstantName
import EntitySql.Text.Hex
import EntitySql.Text.LetterCase
import EntitySql.Text.NameCharacter
import EntitySql.Text.Occurrence
import EntitySql.Text.Quoted
import EntitySql.Text.SnakeCase
import EntitySql.Text.Split
import EntitySql.Text.Truncate
import EntitySql.Text.Utf8
import EntitySql.Time.Instant
import EntitySql.Time.Rfc3339
import EntitySql.Uuid
import EntitySql.Value.Basic
import EntitySql.Value.FieldType
import EntitySql.Proofs.Session.Deletion
import EntitySql.Proofs.Number.BigEndian
import EntitySql.Proofs.Number.Narrowing
import EntitySql.Proofs.Text.Utf8
import EntitySql.Proofs.Postgres.Cell
import EntitySql.Proofs.Postgres.Mismatch
import EntitySql.Proofs.Json.Numeral
import EntitySql.Proofs.Json.RoundTrip
import EntitySql.Proofs.Sql.Leftmost
import EntitySql.Proofs.Sql.Exposure
import EntitySql.Proofs.Sql.Rebuilding
import EntitySql.Proofs.Session.Transaction
import EntitySql.Proofs.Entity.RowWriting
import EntitySql.Proofs.Entity.Rereading
import EntitySql.Proofs.Sql.Balance
import EntitySql.Proofs.Sql.Isolation
import EntitySql.Proofs.Postgres.Exactness
import EntitySql.Proofs.Text.SnakeCase
import EntitySql.Proofs.Entity.Decoding
import EntitySql.Proofs.Session.Finding
import EntitySql.Proofs.Postgres.Undecodable
import EntitySql.Proofs.Text.Trimming
import EntitySql.Proofs.Model.Tag
import EntitySql.Proofs.Model.Naming
import EntitySql.Proofs.Declaration.Column
import EntitySql.Proofs.Session.Tally
import EntitySql.Proofs.Text.Words
