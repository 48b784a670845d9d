import ParamSql.Run

/-!
# A server that answers by a script

A server for trying out statements: it understands none of them and gives every one the same answer,
which is written down beforehand. It can refuse connections, hang up, refuse to prepare a statement,
claim another number of parameters, or fail after its rows.

Results:
* `answer_eq_ok_iff`, `answer_eq_error_iff`: when a query is answered, and with what.
-/

namespace ParamSql

variable {α : Type}

/-- The answer of a server to every statement. -/
structure Script where
  columns : List (String × ColumnType)
  rows : List (List Cell)
  /-- The server refuses connections. -/
  refuses : Bool
  /-- The server hangs up. -/
  closes : Bool
  /-- The statement cannot be prepared. -/
  prepareError : Option ServerReport
  /-- The number of parameters that the server claims, if it is not to be the right one. -/
  parameters : Option Nat
  /-- The statement fails after its rows. -/
  failure : Option ServerReport

/-- How a statement reaches a server. -/
inductive Channel where
  /-- A connection, or a transaction on one. -/
  | direct
  /-- A connection of a pool, or a transaction on one. -/
  | checkedOut
  /-- A connection of a pool for each statement. -/
  | pool
  deriving DecidableEq, Repr

namespace Script

/-- Why the query fails, if it does: the connection comes first, then preparing, then the number of
parameters, then the execution. -/
def fault? (s : Script) (query : Query α) : Option ServerFault :=
  if s.closes then some .closed
  else
    match s.prepareError with
    | some report => some (.reported report)
    | none =>
      let expected := s.parameters.getD query.values.length
      if expected ≠ query.values.length then
        some (.parameterCount expected query.values.length)
      else s.failure.map .reported

/-- The rows of the answer. -/
def resultRows (s : Script) : List Row := s.rows.map fun cells => ⟨s.columns, cells⟩

/-- The answer to a query on a connection. -/
def answer (s : Script) : Executor α := fun query =>
  match s.fault? query with
  | some fault => .error (.execution query.sql fault)
  | none => .ok s.resultRows

/-- The executor of a channel to the server. Connections are opened first, but for a pool only when
a statement needs one. -/
def connect (s : Script) : Channel → Except Error (Executor α)
  | .direct => if s.refuses then .error (.connection .refused) else .ok s.answer
  | .checkedOut => if s.refuses then .error (.pool .refused) else .ok s.answer
  | .pool => .ok (if s.refuses then fun _ => .error (.pool .refused) else s.answer)

/-- A query is answered exactly if nothing is written down against it, and with the same rows
whatever it asks for. -/
theorem answer_eq_ok_iff {s : Script} {query : Query α} {rows : List Row} :
    s.answer query = .ok rows ↔
      rows = s.resultRows ∧ s.closes = false ∧ s.prepareError = none ∧
        (∀ n ∈ s.parameters, n = query.values.length) ∧ s.failure = none := by
  have hexpected : s.parameters.getD query.values.length = query.values.length ↔
      ∀ n ∈ s.parameters, n = query.values.length := by
    cases s.parameters <;> simp
  rw [answer, fault?, ← hexpected]
  cases s.closes with
  | true => simp
  | false =>
    cases s.prepareError with
    | some report => simp
    | none =>
      by_cases h : s.parameters.getD query.values.length = query.values.length
      · cases s.failure <;> simp [h, eq_comm]
      · simp [h]

/-- A fault is reported with the text of the query. -/
theorem answer_eq_error_iff {s : Script} {query : Query α} {error : Error} :
    s.answer query = .error error ↔
      ∃ fault, s.fault? query = some fault ∧ error = .execution query.sql fault := by
  rw [answer]
  cases s.fault? query <;> simp [eq_comm]

end Script

/-- The executor that gives every query the same answer, without a server. -/
def constantly (answer : Except Error (List Row)) : Executor α := fun _ => answer

end ParamSql
