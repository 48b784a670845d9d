import ParamSql.Conflict
import ParamSql.Predicate.Call
import ParamSql.Projection

/-!
# INSERT

The columns of an INSERT are those of its first row, without qualifiers; every other row sets the
same columns, in any order. A single row without columns inserts defaults.

Models `InsertQb`.

Results:
* `addColumn_eq_ok_iff`: when a further column is accepted.
* `conflict_apply`: of several conflict clauses the last one counts.
-/

namespace ParamSql

variable {α : Type}

/-- An INSERT statement (`InsertQb`). -/
structure Insert (α : Type) where
  table : String
  rows : List (OrderedMap α)
  conflict : Option (Conflict α)
  returning : List Projection
  fault : Option Identifier.Fault

namespace Insert

/-- An INSERT without rows (`InsertQb.new`). -/
def ofTable (table : String) : Insert α :=
  { table, rows := [], conflict := none, returning := [], fault := none }

/-! ## Calls -/

/-- Inserts further rows (`InsertQb.values_many`). -/
def addRows (i : Insert α) (rows : List (OrderedMap α)) : Insert α :=
  { i with rows := i.rows ++ rows }

/-- Returns further columns, given as text (`InsertQb.returning`). -/
def addReturning (i : Insert α) (names : List String) : Insert α :=
  let (entries, fault) := Projection.parseAll names
  { i with
    returning := i.returning ++ entries
    fault := i.fault.or fault }

/-- Sets the conflict clause (`InsertQb.on_conflict`, `OnConflictQb.finish`). Several filters all
have to hold. -/
def setConflict (i : Insert α) (target : ConflictTarget) (filters : List (Predicate α))
    (action : ConflictAction α) : Insert α :=
  { i with conflict := some ⟨target, action, filters.foldl Predicate.merge ∅⟩ }

/-- One call on an INSERT, as a value. -/
inductive Call (α : Type) where
  | rows (rows : List (OrderedMap α))
  | returning (names : List String)
  | conflict (target : ConflictTarget) (filters : List (List (Predicate.Call α)))
    (action : ConflictAction α)

/-- The statement after a call. -/
def apply (i : Insert α) : Call α → Insert α
  | .rows rows => i.addRows rows
  | .returning names => i.addReturning names
  | .conflict target filters action =>
    i.setConflict target (filters.map Predicate.ofCalls) action

/-! ## Compiling -/

/-- The columns so far with one more, which has to be another one. -/
def addColumn (columns : List Identifier) (name : String) :
    Except Rejection (List Identifier) := do
  let column := (← Identifier.expect name).last
  if column ∈ columns then throw (.repeatedColumn column.name)
  return columns ++ [column]

/-- The columns of the first row (`InsertQb.insert_columns`). -/
def targetColumns (i : Insert α) : Except Rejection (List Identifier) :=
  match i.rows with
  | [] => .ok []
  | row :: _ => row.keys.foldlM addColumn []

/-- Whether a row sets exactly the columns of another one. -/
def sameColumns (first row : OrderedMap α) : Bool :=
  row.size = first.size && first.keys.all row.contains

/-- The values of a row in the order of the columns of the first one. -/
def tuple (first row : OrderedMap α) : Phrase α :=
  .parens (.listed ((first.keys.filterMap row.get?).map .value))

/-- The tuple of the row of this number, which has to set the columns of the first row. -/
def tupleAt (first : OrderedMap α) (numbered : OrderedMap α × Nat) :
    Except Rejection (Phrase α) :=
  if sameColumns first numbered.1 then .ok (tuple first numbered.1)
  else .error (.rowShape numbered.2)

/-- The part with the columns and the rows (`InsertQb.values_clause`). -/
def valuesClause (i : Insert α) (columns : List Identifier) : Except Rejection (Phrase α) :=
  match i.rows with
  | [] => .error .noRows
  | first :: more =>
    if columns.isEmpty then
      if more.isEmpty then .ok (.keyword "DEFAULT VALUES") else .error .noColumns
    else
      ((i.rows.zipIdx 1).mapM (tupleAt first)).map fun tuples =>
        .spaced [.parens (.listed (columns.map .name)), .keyword "VALUES", .listed tuples]

/-- The conflict clause, or nothing. -/
def conflictClause (i : Insert α) (columns : List Identifier) : Except Rejection (Phrase α) :=
  match i.conflict with
  | some conflict => conflict.phrase columns
  | none => .ok .empty

/-- The statement as a phrase (`InsertQb.to_fragment`). -/
def phrase (i : Insert α) : Except Rejection (Phrase α) := do
  Identifier.check i.fault
  let table ← Identifier.expect i.table
  let columns ← i.targetColumns
  let values ← i.valuesClause columns
  let conflict ← i.conflictClause columns
  return .spaced [.keyword "INSERT INTO", .name table, values, conflict,
    Projection.returning i.returning]

theorem addColumn_eq_ok_iff (columns : List Identifier) (name : String)
    (result : List Identifier) :
    addColumn columns name = .ok result ↔
      ∃ x, Identifier.parse name = .ok x ∧ x.last ∉ columns ∧ result = columns ++ [x.last] := by
  unfold addColumn
  cases hx : Identifier.parse name with
  | error fault => simp [Identifier.expect_error hx, bind, Except.bind]
  | ok x =>
    by_cases h : x.last ∈ columns
    · simp [Identifier.expect_ok hx, bind, Except.bind, h, throw, throwThe, MonadExceptOf.throw]
    · simp [Identifier.expect_ok hx, bind, Except.bind, h, pure, Except.pure, eq_comm]

theorem conflict_apply (i : Insert α) (target : ConflictTarget)
    (filters : List (List (Predicate.Call α))) (action : ConflictAction α) :
    (i.apply (.conflict target filters action)).conflict =
      some ⟨target, action, (filters.map Predicate.ofCalls).foldl Predicate.merge ∅⟩ := rfl

end Insert

end ParamSql
