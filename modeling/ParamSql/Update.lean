import ParamSql.Predicate.Call
import ParamSql.Projection

/-!
# UPDATE

Columns are set in the order in which they were first named; setting a column again replaces what
it is set to. An UPDATE has to have conditions, of which one may be that every row counts.

Models `UpdateQb`.
-/

namespace ParamSql

variable {α : Type}

/-- What a column is set to: a bound value, or an expression in the caller's words (`SetValue`). -/
inductive Assigned (α : Type) where
  | value (v : α)
  | raw (sql : String)

/-- An UPDATE statement (`UpdateQb`). -/
structure Update (α : Type) where
  table : String
  assignments : OrderedMap (Assigned α)
  predicate : Predicate α
  returning : List Projection
  fault : Option Identifier.Fault

namespace Update

/-- An UPDATE that sets nothing (`UpdateQb.new`). -/
def ofTable (table : String) : Update α :=
  { table, assignments := ∅, predicate := ∅, returning := [], fault := none }

/-! ## Calls -/

/-- Sets a column (`UpdateQb.put`). -/
def set (u : Update α) (column : String) (assigned : Assigned α) : Update α :=
  { u with assignments := u.assignments.set column assigned }

/-- Sets every column of a map to its value (`UpdateQb.set_many`). -/
def setAll (u : Update α) (columns : OrderedMap α) : Update α :=
  { u with assignments := u.assignments.setAll (columns.map .value).entries }

/-- Filters the rows that are updated. -/
def addFilter (u : Update α) (call : Predicate.Call α) : Update α :=
  { u with predicate := u.predicate.apply call }

/-- Returns further columns, given as text (`UpdateQb.returning`). -/
def addReturning (u : Update α) (names : List String) : Update α :=
  let (entries, fault) := Projection.parseAll names
  { u with
    returning := u.returning ++ entries
    fault := u.fault.or fault }

/-- One call on an UPDATE, as a value. -/
inductive Call (α : Type) where
  | set (column : String) (assigned : Assigned α)
  | setAll (columns : OrderedMap α)
  | filter (call : Predicate.Call α)
  | returning (names : List String)

/-- The statement after a call. -/
def apply (u : Update α) : Call α → Update α
  | .set column assigned => u.set column assigned
  | .setAll columns => u.setAll columns
  | .filter call => u.addFilter call
  | .returning names => u.addReturning names

/-! ## Compiling -/

/-- What a column is set to, as a phrase. -/
def assignedPhrase : Assigned α → Phrase α
  | .value v => .value v
  | .raw sql => .raw sql

/-- One assignment. The column is never qualified. -/
def assignment (entry : String × Assigned α) : Except Rejection (Phrase α) :=
  (Identifier.expect entry.1).map fun column =>
    .concat [.name column.last, .keyword " = ", assignedPhrase entry.2]

/-- The SET list, which has to have an entry (`UpdateQb.set_clause`). -/
def setClause (u : Update α) : Except Rejection (Phrase α) :=
  if u.assignments.isEmpty then .error .noAssignments
  else
    (u.assignments.entries.mapM assignment).map fun assignments =>
      .concat [.keyword "SET ", .listed assignments]

/-- The statement as a phrase (`UpdateQb.to_fragment`). -/
def phrase (u : Update α) : Except Rejection (Phrase α) := do
  Identifier.check u.fault
  let table ← Identifier.expect u.table
  let assignments ← u.setClause
  let condition ← u.predicate.whereClause
  u.predicate.require .noConditions
  return .spaced [.keyword "UPDATE", .name table, assignments, condition,
    Projection.returning u.returning]

end Update

end ParamSql
