import ParamSql.Log
import ParamSql.Row

/-!
# Running statements

An executor takes a query and gives back rows or an error. Running a statement compiles it, logs
that it is submitted, submits it, logs how that went, and reads the answer: the rows as they are, or
for a count the number in the first column of the first row. A `Session` is such a computation: it
keeps what it does to the world outside in the order in which it is done, also when it stops with an
error.

Models `Statement.run_with`, `FetchRows` and `Executor`.

Results:
* `runFrom_bind_ok`, `runFrom_tryCatch_error`, …: what a session does, step by step.
* `perform_rejected`, `perform_failed`, `perform_finished`: the three ways in which a run goes.
-/

namespace ParamSql

variable {α β γ : Type}

/-- What takes a query to its rows (`Executor`). -/
abbrev Executor (α : Type) := Query α → Except Error (List Row)

/-- How the value of a row at a position is read as a number. -/
abbrev NumberReader := Row → Nat → Except DecodeFault Int

/-- What a statement gives. -/
inductive Output where
  | rows (rows : List Row)
  | count (n : Int)
  deriving DecidableEq, Repr

/-! ## Sessions -/

/-- One thing that is done to the world outside. -/
inductive Effect (α : Type) where
  | log (event : LogEvent)
  | submit (query : Query α)
  deriving DecidableEq, Repr

/-- The event that is logged, if one is. -/
def Effect.event? : Effect α → Option LogEvent
  | .log event => some event
  | .submit _ => none

/-- The query that is submitted, if one is. -/
def Effect.query? : Effect α → Option (Query α)
  | .log _ => none
  | .submit query => some query

/-- A computation that acts on the world outside and may stop with an error. -/
abbrev Session (α β : Type) := ExceptT Error (StateM (List (Effect α))) β

/-- One session on its own: what it did, in order, and what came of it. -/
structure Trace (α β : Type) where
  effects : List (Effect α)
  result : Except Error β

namespace Trace

/-- What was submitted. -/
def submitted (t : Trace α β) : List (Query α) := t.effects.filterMap Effect.query?

/-- What was logged. -/
def events (t : Trace α β) : List LogEvent := t.effects.filterMap Effect.event?

/-- What came of a session, read further. -/
def andThen (t : Trace α β) (f : β → Except Error γ) : Trace α γ :=
  { t with result := t.result.bind f }

end Trace

namespace Session

/-- Does one thing. -/
def act (effect : Effect α) : Session α Unit := modify (· ++ [effect])

/-- Goes on with a value, or stops with an error. -/
def lift (result : Except Error β) : Session α β := ExceptT.mk (pure result)

/-- Submits a query (`Executor.submit`). -/
def submit (executor : Executor α) (query : Query α) : Session α (List Row) := do
  act (.submit query)
  lift (executor query)

/-- What comes of a session, and all that was done by then: what was done before, and what it
did. -/
def runFrom (session : Session α β) (before : List (Effect α)) :
    Except Error β × List (Effect α) := StateT.run (ExceptT.run session) before

/-- The session when nothing was done before. -/
def trace (session : Session α β) : Trace α β :=
  ⟨(session.runFrom []).2, (session.runFrom []).1⟩

variable {session : Session α β} {before after : List (Effect α)}

theorem runFrom_act (effect : Effect α) :
    (act effect).runFrom before = (.ok (), before ++ [effect]) := rfl

theorem runFrom_lift (result : Except Error β) :
    (lift result : Session α β).runFrom before = (result, before) := rfl

theorem runFrom_throw (error : Error) :
    (throw error : Session α β).runFrom before = (.error error, before) := rfl

theorem runFrom_bind_ok {b : β} (h : session.runFrom before = (.ok b, after))
    (next : β → Session α γ) : (session >>= next).runFrom before = (next b).runFrom after := by
  rw [runFrom] at h
  rw [runFrom, ExceptT.run_bind, StateT.run_bind, h]
  rfl

theorem runFrom_bind_error {error : Error} (h : session.runFrom before = (.error error, after))
    (next : β → Session α γ) : (session >>= next).runFrom before = (.error error, after) := by
  rw [runFrom] at h
  rw [runFrom, ExceptT.run_bind, StateT.run_bind, h]
  rfl

theorem runFrom_tryCatch_ok {b : β} (h : session.runFrom before = (.ok b, after))
    (handle : Error → Session α β) :
    (tryCatch session handle : Session α β).runFrom before = (.ok b, after) := by
  rw [runFrom] at h
  rw [runFrom, ExceptT.run_tryCatch, StateT.run_bind, h]
  rfl

theorem runFrom_tryCatch_error {error : Error}
    (h : session.runFrom before = (.error error, after)) (handle : Error → Session α β) :
    (tryCatch session handle : Session α β).runFrom before = (handle error).runFrom after := by
  rw [runFrom] at h
  rw [runFrom, ExceptT.run_tryCatch, StateT.run_bind, h]
  rfl

/-- A submission is done whatever the executor answers. -/
theorem runFrom_submit (executor : Executor α) (query : Query α) :
    (submit executor query).runFrom before = (executor query, before ++ [.submit query]) := by
  rw [submit, runFrom_bind_ok (runFrom_act _), runFrom_lift]

end Session

/-! ## Reading the answer -/

namespace Row

/-- Reads a column of 64-bit numbers, where it is not null. -/
def numberAt : NumberReader := fun row index =>
  match row.readAt ⟨.int8, false⟩ index (toString index) with
  | .ok (.int n) => .ok n
  | .ok _ => .error (.mismatch index)
  | .error fault => .error fault

theorem numberAt_eq_ok_iff {r : Row} {index : Nat} {n : Int} :
    r.numberAt index = .ok n ↔
      (∃ name, r.columns[index]? = some (name, .int8)) ∧ r.cells[index]? = some (.int n) := by
  have hread (cell : Cell) : r.readAt ⟨.int8, false⟩ index (toString index) = .ok cell ↔
      (∃ name, r.columns[index]? = some (name, .int8)) ∧ r.cells[index]? = some cell ∧
        cell ≠ .null := by
    rw [readAt_eq_ok_iff]
    simp
  rw [numberAt]
  constructor
  · intro h
    split at h
    · rename_i m hm
      cases h
      exact ⟨((hread _).1 hm).1, ((hread _).1 hm).2.1⟩
    · cases h
    · cases h
  · rintro ⟨hcolumn, hcell⟩
    rw [(hread (.int n)).2 ⟨hcolumn, hcell, Cell.noConfusion⟩]

end Row

namespace Output

/-- The column under which a count is reported. -/
def countColumn : String := "count"

/-- The position of the number in the answer to a count. -/
def countIndex : Nat := 0

/-- The number in the first column of the first row (`scalar_count`). -/
def countOf (reader : NumberReader) (rows : List Row) : Except Error Int :=
  match rows with
  | [] => .error (.notFound .countRow)
  | row :: _ => (reader row countIndex).mapError (.decode countColumn)

/-- The rows of an output; a count has none. -/
def toRows : Output → List Row
  | .rows found => found
  | .count _ => []

end Output

namespace Statement

/-- Reads the answer to a statement (`Statement.transform`). -/
def output (s : Statement α) (reader : NumberReader) (rows : List Row) : Except Error Output :=
  match s with
  | .count _ => (Output.countOf reader rows).map .count
  | _ => .ok (.rows rows)

/-! ## Running -/

/-- Compiles, submits and reads the answer, with an event before the submission and one after it
(`Statement.run_with`). -/
def perform (s : Statement α) (reader : NumberReader) (log : LogSettings) (executor : Executor α) :
    Session α Output := do
  let query ← Session.lift (s.compile.mapError .validation)
  Session.act (.log (log.submitting s.kind query))
  let rows ← tryCatch (Session.submit executor query) fun error => do
    Session.act (.log (LogSettings.failed s.kind error))
    throw error
  Session.act (.log (log.finished s.kind rows.length))
  Session.lift (s.output reader rows)

/-- Runs one after the other, each on an executor of its own and whatever came of those before:
what they did, in order, and what came of each. -/
def runEach (s : Statement α) (reader : NumberReader) (log : LogSettings)
    (executors : List (Executor α)) : List (Effect α) × List (Except Error Output) :=
  (StateT.run (executors.mapM fun executor => (s.perform reader log executor).run) []).swap

/-- One run (`Statement.run_with`). -/
def run (s : Statement α) (log : LogSettings) (executor : Executor α) : Trace α Output :=
  (s.perform Row.numberAt log executor).trace

/-- Runs and reads columns of every row (`FetchRows.fetch_all`). -/
def fetchAll (s : Statement α) (executor : Executor α) (wanted : List (String × CellType)) :
    Trace α (List (List Cell)) :=
  (s.run .default executor).andThen fun output =>
    output.toRows.mapM fun row => row.readAll wanted

/-- Runs and reads columns of the first row, if there is one (`FetchRows.fetch_optional`). -/
def fetchFirst (s : Statement α) (executor : Executor α) (wanted : List (String × CellType)) :
    Trace α (Option (List Cell)) :=
  (s.run .default executor).andThen fun output =>
    match output.toRows with
    | [] => .ok none
    | row :: _ => (row.readAll wanted).map some

section

variable {s : Statement α} (reader : NumberReader) (log : LogSettings) {executor : Executor α}
  {before : List (Effect α)}

/-- A rejected statement does nothing outside. -/
theorem perform_rejected {cause : Rejection} (h : s.compile = .error cause) :
    (s.perform reader log executor).runFrom before = (.error (.validation cause), before) := by
  rw [perform, h]
  exact Session.runFrom_bind_error (Session.runFrom_lift _) _

theorem perform_failed {query : Query α} (h : s.compile = .ok query) {error : Error}
    (hx : executor query = .error error) :
    (s.perform reader log executor).runFrom before =
      (.error error, before ++ [.log (log.submitting s.kind query), .submit query,
        .log (LogSettings.failed s.kind error)]) := by
  have hsubmit : (Session.submit executor query).runFrom
      (before ++ [.log (log.submitting s.kind query)]) =
        (.error error, before ++ [.log (log.submitting s.kind query)] ++ [.submit query]) := by
    rw [Session.runFrom_submit, hx]
  rw [perform, h]
  refine (Session.runFrom_bind_ok (Session.runFrom_lift (.ok query)) _).trans ?_
  refine (Session.runFrom_bind_ok (Session.runFrom_act _) _).trans ?_
  refine (Session.runFrom_bind_error (Session.runFrom_tryCatch_error hsubmit _ |>.trans ?_) _)
  rw [Session.runFrom_bind_ok (Session.runFrom_act _), Session.runFrom_throw, List.append_assoc,
    List.append_assoc]
  rfl

/-- What the rows are read as comes after all that is done outside. -/
theorem perform_finished {query : Query α} (h : s.compile = .ok query) {rows : List Row}
    (hx : executor query = .ok rows) :
    (s.perform reader log executor).runFrom before =
      (s.output reader rows, before ++ [.log (log.submitting s.kind query), .submit query,
        .log (log.finished s.kind rows.length)]) := by
  have hsubmit : (Session.submit executor query).runFrom
      (before ++ [.log (log.submitting s.kind query)]) =
        (.ok rows, before ++ [.log (log.submitting s.kind query)] ++ [.submit query]) := by
    rw [Session.runFrom_submit, hx]
  rw [perform, h]
  refine (Session.runFrom_bind_ok (Session.runFrom_lift (.ok query)) _).trans ?_
  refine (Session.runFrom_bind_ok (Session.runFrom_act _) _).trans ?_
  refine (Session.runFrom_bind_ok (Session.runFrom_tryCatch_ok hsubmit _) _).trans ?_
  refine (Session.runFrom_bind_ok (Session.runFrom_act _) _).trans ?_
  rw [Session.runFrom_lift, List.append_assoc, List.append_assoc]
  rfl

end

end Statement

end ParamSql
