import ParamSql.Catalog.Reader
import ParamSql.Pool.Reader
import ParamSql.Proofs.Catalog.Check
import ParamSql.Proofs.Catalog.Description
import ParamSql.Proofs.Catalog.Lookup
import ParamSql.Proofs.Comment.Statements
import ParamSql.Proofs.Decimal.ReadBack
import ParamSql.Proofs.Insert.Columns
import ParamSql.Proofs.Insert.Conflict
import ParamSql.Proofs.Insert.Rows
import ParamSql.Proofs.Json.Sorted
import ParamSql.Proofs.Lexical.Statements
import ParamSql.Proofs.Mapping.Statements
import ParamSql.Proofs.Pool.Address
import ParamSql.Proofs.Pool.Settings
import ParamSql.Proofs.Predicate.Divided
import ParamSql.Proofs.Projection.Lists
import ParamSql.Proofs.Rejections.Statements
import ParamSql.Proofs.Run.Protocol
import ParamSql.Proofs.Select.Count
import ParamSql.Proofs.SortKey.Words
import ParamSql.Proofs.Statement.Assignments
import ParamSql.Proofs.Statement.Mutation
import ParamSql.Proofs.Template.Escape
import ParamSql.Proofs.Template.Tokens
import ParamSql.Proofs.Text.Quoted
import ParamSql.Proofs.Values.Statements
import ParamSql.Server
import ParamSql.Value
