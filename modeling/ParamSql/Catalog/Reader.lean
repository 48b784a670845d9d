import ParamSql.Catalog
import ParamSql.Json.Fields
import ParamSql.Json.Reader

/-!
# Catalogs as JSON

A catalog is written as an array of tables. A table is an object with a `name` and, if wanted, a
`schema`, `columns` and `constraints`, or an array of these four in the order schema, name,
columns, constraints, of which the last two may be missing. Fields of other names do not count; a
field that is given has to have its type, and none of the four may be given twice.

Models `SchemaRegistry.from_json`.
-/

namespace ParamSql

namespace TableInfo

open Json

/-- A table, from its four parts where they are given. -/
def ofParts? (schema name columns constraints : Option Json) : Option TableInfo := do
  let schema ← orDefault? text? defaultSchema schema
  let name ← name.bind text?
  let columns ← orDefault? texts? [] columns
  let constraints ← orDefault? texts? [] constraints
  some ⟨schema, name, columns, constraints⟩

/-- The table that a document describes. -/
def ofJson? : Json → Option TableInfo
  | .object fields => do
    let schema ← once? fields "schema"
    let name ← once? fields "name"
    let columns ← once? fields "columns"
    let constraints ← once? fields "constraints"
    ofParts? schema name columns constraints
  | .array items =>
    if items.length ≤ 4 then ofParts? items[0]? items[1]? items[2]? items[3]? else none
  | _ => none

end TableInfo

namespace Catalog

/-- The catalog that a JSON text describes (`SchemaRegistry.from_json`). -/
def ofJson (text : String) : Except Rejection Catalog :=
  match (Json.read? text).bind (·.list? TableInfo.ofJson?) with
  | some tables => .ok (ofList tables)
  | none => .error .badCatalog

end Catalog

end ParamSql
