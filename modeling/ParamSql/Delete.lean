import ParamSql.Predicate.Call
import ParamSql.Projection

/-!
# DELETE

A DELETE has to have conditions, of which one may be that every row counts.

Models `DeleteQb`.
-/

namespace ParamSql

variable {α : Type}

/-- A DELETE statement (`DeleteQb`). -/
structure Delete (α : Type) where
  table : String
  predicate : Predicate α
  returning : List Projection
  fault : Option Identifier.Fault

namespace Delete

/-- A DELETE without conditions (`DeleteQb.new`). -/
def ofTable (table : String) : Delete α :=
  { table, predicate := ∅, returning := [], fault := none }

/-- Filters the rows that are deleted. -/
def addFilter (d : Delete α) (call : Predicate.Call α) : Delete α :=
  { d with predicate := d.predicate.apply call }

/-- Returns further columns, given as text (`DeleteQb.returning`). -/
def addReturning (d : Delete α) (names : List String) : Delete α :=
  let (entries, fault) := Projection.parseAll names
  { d with
    returning := d.returning ++ entries
    fault := d.fault.or fault }

/-- One call on a DELETE, as a value. -/
inductive Call (α : Type) where
  | filter (call : Predicate.Call α)
  | returning (names : List String)

/-- The statement after a call. -/
def apply (d : Delete α) : Call α → Delete α
  | .filter call => d.addFilter call
  | .returning names => d.addReturning names

/-- The statement as a phrase (`DeleteQb.to_fragment`). -/
def phrase (d : Delete α) : Except Rejection (Phrase α) := do
  Identifier.check d.fault
  let table ← Identifier.expect d.table
  let condition ← d.predicate.whereClause
  d.predicate.require .noConditions
  return .spaced [.keyword "DELETE FROM", .name table, condition,
    Projection.returning d.returning]

end Delete

end ParamSql
