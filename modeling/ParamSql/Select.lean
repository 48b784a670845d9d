import ParamSql.Join
import ParamSql.Predicate.Call
import ParamSql.Projection
import ParamSql.RowLock
import ParamSql.SortKey

/-!
# SELECT and SELECT COUNT(*)

A `Select` is put together by calls in any order. A name that is no identifier is recorded by the
call that brings it; the table, the sort keys and the predicate are read when the statement
compiles. A `Count` is the same statement with everything but its table, joins and predicate left
out.

Models `SelectQb`, `LockScope` and `CountQb`.

Results:
* `addLock_eq`: a lock with its tables and its wait policy, in one step.
-/

namespace ParamSql

variable {α : Type}

/-- A SELECT statement (`SelectQb`). -/
@[ext]
structure Select (α : Type) where
  table : String
  columns : List Projection
  joins : List Join
  predicate : Predicate α
  order : List SortKey
  limit : Option α
  offset : Option α
  locks : List RowLock
  fault : Option Identifier.Fault

/-- A SELECT COUNT(*) statement (`CountQb`). -/
structure Count (α : Type) where
  select : Select α

/-- A SELECT whose last lock was added just now and can still be told how to wait (`LockScope`). -/
structure LockScope (α : Type) where
  select : Select α

namespace LockScope

/-- Leaves the lock as it is (`LockScope.finish`). -/
def finish (l : LockScope α) : Select α := l.select

/-- Tells the last lock how to wait (`LockScope.wait`). -/
def wait (l : LockScope α) (policy : WaitPolicy) : Select α :=
  { l.select with locks := RowLock.setLastWait policy l.select.locks }

/-- The statement with the wait policy of its last lock set; waiting needs nothing set. -/
def leave (l : LockScope α) : WaitPolicy → Select α
  | .wait => l.finish
  | .noWait => l.wait .noWait
  | .skipLocked => l.wait .skipLocked

end LockScope

namespace Select

/-- All columns and rows of a table (`SelectQb.new`). -/
def ofTable (table : String) : Select α :=
  { table, columns := [], joins := [], predicate := ∅, order := [], limit := none,
    offset := none, locks := [], fault := none }

/-! ## Calls -/

/-- Records the fault of a name, if there is one, unless a fault is recorded
(`SelectQb.record_error`). -/
def record (s : Select α) (fault : Option Identifier.Fault) : Select α :=
  { s with fault := s.fault.or fault }

/-- Shows further columns, given as text (`SelectQb.select`). -/
def addColumns (s : Select α) (names : List String) : Select α :=
  let (entries, fault) := Projection.parseAll names
  { s with columns := s.columns ++ entries }.record fault

/-- Shows further columns (`SelectQb.select_specs`). -/
def addProjections (s : Select α) (entries : List Projection) : Select α :=
  { s with columns := s.columns ++ entries }

/-- Joins a table; a join with a bad name is left out (`SelectQb.left_join`,
`SelectQb.inner_join`). -/
def addJoin (s : Select α) (kind : JoinKind) (table : String) (on : JoinOn) : Select α :=
  match Join.parse kind table on with
  | .ok join => { s with joins := s.joins ++ [join] }
  | .error fault => s.record (some fault)

/-- Sorts by further keys (`SelectQb.order_by_specs`). -/
def addKeys (s : Select α) (keys : List SortKey) : Select α :=
  { s with order := s.order ++ keys }

/-- Sets the number of rows (`SelectQb.limit`). -/
def setLimit (s : Select α) (limit : α) : Select α := { s with limit := some limit }

/-- Sets the number of rows to pass over (`SelectQb.offset`). -/
def setOffset (s : Select α) (offset : α) : Select α := { s with offset := some offset }

/-- Locks rows; tables with a bad name are left out of the lock, which waits unless it is told
otherwise (`SelectQb.lock`). -/
def lock (s : Select α) (mode : LockMode) (tables : List String) : LockScope α :=
  let (tables, fault) := RowLock.parseTables tables
  ⟨{ s with locks := s.locks ++ [RowLock.mk mode tables .wait] }.record fault⟩

/-- Locks rows, and tells the lock how to wait. -/
def addLock (s : Select α) (mode : LockMode) (tables : List String) (policy : WaitPolicy) :
    Select α := (s.lock mode tables).leave policy

/-- Filters rows. -/
def addFilter (s : Select α) (call : Predicate.Call α) : Select α :=
  { s with predicate := s.predicate.apply call }

/-- Counts the rows (`SelectQb.count`). -/
def count (s : Select α) : Count α := ⟨s⟩

/-- One call on a SELECT, as a value. -/
inductive Call (α : Type) where
  | columns (names : List String)
  | projections (entries : List Projection)
  | join (kind : JoinKind) (table : String) (on : JoinOn)
  | order (keys : List SortKey)
  | limit (n : α)
  | offset (n : α)
  | lock (mode : LockMode) (tables : List String) (policy : WaitPolicy)
  | filter (call : Predicate.Call α)

/-- The statement after a call. -/
def apply (s : Select α) : Call α → Select α
  | .columns names => s.addColumns names
  | .projections entries => s.addProjections entries
  | .join kind table on => s.addJoin kind table on
  | .order keys => s.addKeys keys
  | .limit n => s.setLimit n
  | .offset n => s.setOffset n
  | .lock mode tables policy => s.addLock mode tables policy
  | .filter call => s.addFilter call

/-! ## Compiling -/

/-- A keyword with a bound value, or nothing if there is no value (`bound`). -/
def bound (keyword : String) : Option α → Phrase α
  | some v => .concat [.keyword keyword, .value v]
  | none => .empty

/-- The part from FROM to WHERE: its table is read first, then the predicate
(`SelectQb.from_clause`). -/
def source (s : Select α) : Except Rejection (Phrase α) := do
  let table ← Identifier.expect s.table
  let condition ← s.predicate.whereClause
  return .spaced [.keyword "FROM", .name table, Join.clause s.joins, condition]

/-- The statement as a phrase (`SelectQb.to_fragment`). -/
def phrase (s : Select α) : Except Rejection (Phrase α) := do
  Identifier.check s.fault
  let source ← s.source
  let order ← SortKey.clause s.order
  return .spaced [.keyword "SELECT", Projection.selection s.columns, source, order,
    bound "LIMIT " s.limit, bound "OFFSET " s.offset, RowLock.clause s.locks]

/-- A wait policy reaches the lock that it is set on, and no other. -/
theorem addLock_eq (s : Select α) (mode : LockMode) (tables : List String)
    (policy : WaitPolicy) :
    s.addLock mode tables policy =
      { s with locks := s.locks ++ [RowLock.mk mode (RowLock.parseTables tables).1 policy] }.record
        (RowLock.parseTables tables).2 := by
  cases policy with
  | wait => rfl
  | noWait => simp [addLock, lock, LockScope.leave, LockScope.wait, record]
  | skipLocked => simp [addLock, lock, LockScope.leave, LockScope.wait, record]

end Select

namespace Count

/-- Filters the rows that are counted. -/
def addFilter (c : Count α) (call : Predicate.Call α) : Count α := ⟨c.select.addFilter call⟩

/-- The statement as a phrase (`CountQb.to_fragment`). -/
def phrase (c : Count α) : Except Rejection (Phrase α) := do
  Identifier.check c.select.fault
  let source ← c.select.source
  return .spaced [.keyword "SELECT COUNT(*)", source]

end Count

end ParamSql
