import ParamSql.Insert

/-!
# Catalogs

A catalog describes tables: their columns and constraints. An INSERT can be checked against it
before it is run; compiling never does.

Models `SchemaRegistry` and `InsertQb.check_schema`.
-/

namespace ParamSql

variable {α : Type}

/-- The description of a table (`TableSchema`). -/
structure TableInfo where
  schema : String
  name : String
  columns : List String
  constraints : List String
  deriving DecidableEq, Repr

namespace TableInfo

/-- The schema of tables whose schema is not named. -/
def defaultSchema : String := "public"

/-- The name under which the table is found. -/
def key (t : TableInfo) : String := t.schema ++ "." ++ t.name

/-- The text after the last dot. -/
def afterDot (name : String) : String :=
  String.ofList (name.toList.reverse.takeWhile (· ≠ '.')).reverse

/-- Whether there is a column of this name; qualifiers do not count (`TableSchema.has_column`). -/
def hasColumn (t : TableInfo) (name : String) : Bool := t.columns.contains (afterDot name)

/-- Whether there is a constraint of this name (`TableSchema.has_constraint`). -/
def hasConstraint (t : TableInfo) (name : String) : Bool := t.constraints.contains name

/-- Rejects an unknown column (`TableSchema.require_column`). -/
def requireColumn (t : TableInfo) (name : String) : Except Rejection Unit :=
  if t.hasColumn name then .ok () else .error (.unknownColumn name t.schema t.name)

/-- Rejects an unknown constraint (`TableSchema.require_constraint`). -/
def requireConstraint (t : TableInfo) (name : String) : Except Rejection Unit :=
  if t.hasConstraint name then .ok () else .error (.unknownConstraint name t.schema t.name)

end TableInfo

/-- Descriptions of tables, by schema and name (`SchemaRegistry`). -/
structure Catalog where
  tables : OrderedMap TableInfo

namespace Catalog

/-- The catalog without tables. -/
def empty : Catalog := ⟨∅⟩

instance : EmptyCollection Catalog := ⟨empty⟩

instance : Inhabited Catalog := ⟨empty⟩

/-- The number of tables (`SchemaRegistry.len`). -/
def size (c : Catalog) : Nat := c.tables.size

/-- Adds a table, or replaces the one that was found under its schema and name
(`SchemaRegistry.register_table`). -/
def register (c : Catalog) (t : TableInfo) : Catalog := ⟨c.tables.set t.key t⟩

/-- The catalog of the tables of a list, the first one registered first. -/
def ofList (tables : List TableInfo) : Catalog := tables.foldl register ∅

/-- Finds `schema.name`, or a name without a dot in the default schema
(`SchemaRegistry.get_table`). -/
def find? (c : Catalog) (table : String) : Option TableInfo :=
  if '.' ∈ table.toList then c.tables.get? table
  else c.tables.get? (TableInfo.defaultSchema ++ "." ++ table)

/-! ## Checking an INSERT -/

/-- The columns that a conflict clause names. -/
def conflictColumns (conflict : Conflict α) : List String :=
  match conflict.action with
  | .update (.columns names) => names
  | .update (.values columns) => columns.keys
  | .update .inserted => []
  | .nothing => []

/-- Checks the target of a conflict clause. -/
def checkTarget (t : TableInfo) : ConflictTarget → Except Rejection Unit
  | .columns names => names.forM t.requireColumn
  | .constraint name => t.requireConstraint name

/-- Checks a conflict clause: its target first, then the columns that it sets. -/
def checkConflict (t : TableInfo) (conflict : Conflict α) : Except Rejection Unit := do
  checkTarget t conflict.target
  (conflictColumns conflict).forM t.requireColumn

/-- Checks an entry of a RETURNING clause; a wildcard fits every table. -/
def checkReturning (t : TableInfo) : Projection → Except Rejection Unit
  | .column name => t.requireColumn name.name
  | .table _ => .ok ()
  | .all => .ok ()

/-- Checks an INSERT: its table, the columns of its rows, its conflict clause and what it returns,
in this order (`InsertQb.check_schema`). -/
def check (c : Catalog) (i : Insert α) : Except Rejection Unit := do
  match c.find? i.table with
  | none => throw (.unknownTable i.table)
  | some t =>
    i.rows.forM fun row => row.keys.forM t.requireColumn
    match i.conflict with
    | some conflict => checkConflict t conflict
    | none => pure ()
    i.returning.forM (checkReturning t)

end Catalog

end ParamSql
