import Mathlib.Data.List.Forall2
import ParamSql.Run

/-!
# The protocol of runs

What a caller of statements can rely on, whatever the executor answers and however often a statement
is run: `Protocol` is one run as it is seen from outside, in the order in which things happen. It
says of the events what they show, and of the outcome what it is in terms of the answer. How a
column of a row is read as a number is left to the driver, and nothing is assumed of it.

Results:
* `shown_truncate`: what an event shows of a text.
* `answers_output`: what becomes of the rows of an answer.
* `Statement.exists_protocol`: one run, whatever was done before it.
* `Statement.runEach_protocol`: any number of runs, one after the other.
* `Statement.run_protocol`, `Statement.fetchAll_protocol`, `Statement.fetchFirst_protocol`: one run
  on its own, and rows that are read further.
-/

namespace ParamSql

variable {α : Type}

/-- What is shown of a text: all of it, or if it is longer than allowed its first characters and
three dots. -/
inductive Shown (maxLength : Option Nat) (sql : String) : String → Prop where
  | whole (h : ∀ n ∈ maxLength, sql.length ≤ n) : Shown maxLength sql sql
  | cut {n : Nat} (hn : maxLength = some n) (h : n < sql.length) :
      Shown maxLength sql (String.ofList (sql.toList.take n) ++ "...")

/-- What becomes of the rows of an answer: a count reads the first column of the first of them, and
every other statement gives them as they are. -/
inductive Answers (reader : NumberReader) :
    StatementKind → List Row → Except Error Output → Prop where
  | rows {kind : StatementKind} (h : kind ≠ .count) (found : List Row) :
      Answers reader kind found (.ok (.rows found))
  | count {row : Row} {n : Int} (h : reader row 0 = .ok n) (more : List Row) :
      Answers reader .count (row :: more) (.ok (.count n))
  | noRow : Answers reader .count [] (.error (.notFound .countRow))
  | unreadable {row : Row} {fault : DecodeFault} (h : reader row 0 = .error fault)
      (more : List Row) : Answers reader .count (row :: more) (.error (.decode "count" fault))

/-- One run of a statement on an executor: all that it does outside, in order, and its outcome. -/
inductive Protocol (reader : NumberReader) (log : LogSettings) (s : Statement α)
    (executor : Executor α) : Trace α Output → Prop where
  | rejected {cause : Rejection} (h : s.compile = .error cause) :
      Protocol reader log s executor ⟨[], .error (.validation cause)⟩
  | failed {query : Query α} (h : s.compile = .ok query) {shown : String}
      (hshown : Shown log.maxLength query.sql shown) {error : Error}
      (hx : executor query = .error error) :
      Protocol reader log s executor
        ⟨[.log ⟨log.level, .submitting s.kind query.values.length shown⟩, .submit query,
          .log ⟨.warn, .failed s.kind (error.code?.getD "-") error.message⟩], .error error⟩
  | finished {query : Query α} (h : s.compile = .ok query) {shown : String}
      (hshown : Shown log.maxLength query.sql shown) {rows : List Row}
      (hx : executor query = .ok rows) {result : Except Error Output}
      (hresult : Answers reader s.kind rows result) :
      Protocol reader log s executor
        ⟨[.log ⟨log.level, .submitting s.kind query.values.length shown⟩, .submit query,
          .log ⟨log.level, .finished s.kind rows.length⟩], result⟩

theorem shown_truncate (log : LogSettings) (sql : String) :
    Shown log.maxLength sql (log.truncate sql) := by
  by_cases h : ∀ n ∈ log.maxLength, sql.toList.length ≤ n
  · rw [LogSettings.truncate_short h]
    exact .whole fun n hn => String.length_toList ▸ h n hn
  · obtain ⟨n, hn, hlong⟩ : ∃ n ∈ log.maxLength, n < sql.toList.length := by
      simpa only [not_forall, exists_prop, Nat.not_le] using h
    rw [LogSettings.truncate_long hn hlong, String.ofList_append]
    exact .cut hn (String.length_toList ▸ hlong)

theorem answers_countOf (reader : NumberReader) (rows : List Row) :
    Answers reader .count rows ((Output.countOf reader rows).map .count) := by
  cases rows with
  | nil => exact .noRow
  | cons row more =>
    rw [Output.countOf, Output.countIndex]
    cases h : reader row 0 with
    | ok n => exact .count h more
    | error fault => exact .unreadable h more

theorem answers_output (reader : NumberReader) (s : Statement α) (rows : List Row) :
    Answers reader s.kind rows (s.output reader rows) := by
  cases s with
  | count c => exact answers_countOf reader rows
  | select s => exact .rows StatementKind.noConfusion rows
  | insert i => exact .rows StatementKind.noConfusion rows
  | update u => exact .rows StatementKind.noConfusion rows
  | delete d => exact .rows StatementKind.noConfusion rows

namespace Statement

variable (s : Statement α) (reader : NumberReader) (log : LogSettings)

/-- A run adds what the protocol says to what was done before, and nothing done before changes what
it does. -/
theorem exists_protocol (executor : Executor α) : ∃ t, Protocol reader log s executor t ∧
    ∀ before, (s.perform reader log executor).runFrom before =
      (t.result, before ++ t.effects) := by
  cases h : s.compile with
  | error cause =>
    refine ⟨_, .rejected h, fun before => ?_⟩
    rw [perform_rejected reader log h, List.append_nil]
  | ok query =>
    have hshown := shown_truncate log query.sql
    cases hx : executor query with
    | error error => exact ⟨_, .failed h hshown hx, fun before => perform_failed reader log h hx⟩
    | ok rows =>
      exact ⟨_, .finished h hshown hx (answers_output reader s rows),
        fun before => perform_finished reader log h hx⟩

/-- Runs after what was done before them. -/
theorem exists_protocols (executors : List (Executor α)) :
    ∃ traces, List.Forall₂ (Protocol reader log s) executors traces ∧
      ∀ before, StateT.run (executors.mapM fun executor => (s.perform reader log executor).run)
        before = (traces.map Trace.result, before ++ traces.flatMap Trace.effects) := by
  induction executors with
  | nil =>
    refine ⟨[], .nil, fun before => ?_⟩
    rw [List.mapM_nil, List.flatMap_nil, List.append_nil]
    rfl
  | cons executor rest ih =>
    obtain ⟨t, ht, hrun⟩ := exists_protocol s reader log executor
    obtain ⟨traces, htraces, hrest⟩ := ih
    refine ⟨t :: traces, .cons ht htraces, fun before => ?_⟩
    have hfirst : StateT.run (s.perform reader log executor).run before =
      (t.result, before ++ t.effects) := hrun before
    rw [List.mapM_cons, StateT.run_bind, hfirst]
    change StateT.run (rest.mapM _ >>= fun results => pure (t.result :: results))
      (before ++ t.effects) = _
    rw [StateT.run_bind, hrest, List.flatMap_cons, ← List.append_assoc]
    rfl

theorem run_protocol (executor : Executor α) :
    Protocol Row.numberAt log s executor (s.run log executor) := by
  obtain ⟨t, ht, hrun⟩ := exists_protocol s Row.numberAt log executor
  have htrace : s.run log executor = t := by
    rw [run, Session.trace, hrun]
    rfl
  rwa [htrace]

end Statement

/-- A run whose rows are read further: what it does stays, its rows are read, and where it has none
its error stays as well. -/
inductive Fetches {β : Type} (read : List Row → Except Error β) :
    Trace α Output → Trace α β → Prop where
  | rows (effects : List (Effect α)) (found : List Row) :
      Fetches read ⟨effects, .ok (.rows found)⟩ ⟨effects, read found⟩
  | error (effects : List (Effect α)) (error : Error) :
      Fetches read ⟨effects, .error error⟩ ⟨effects, .error error⟩

/-- The run of a statement that is no count has rows or an error, so there is no other case. -/
theorem Protocol.fetches {β : Type} {reader : NumberReader} {log : LogSettings} {s : Statement α}
    {executor : Executor α} {t : Trace α Output} (h : Protocol reader log s executor t)
    (hkind : s.kind ≠ .count) (read : List Row → Except Error β) :
    Fetches read t (t.andThen fun output => read output.toRows) := by
  cases h with
  | rejected => exact .error _ _
  | failed => exact .error _ _
  | finished _ _ _ hresult =>
    generalize s.kind = kind at hresult hkind
    cases hresult with
    | rows => exact .rows _ _
    | count => exact (hkind rfl).elim
    | noRow => exact (hkind rfl).elim
    | unreadable => exact (hkind rfl).elim

namespace Statement

variable {s : Statement α} (hkind : s.kind ≠ .count) (executor : Executor α)
  (wanted : List (String × CellType))

include hkind

/-- Columns are read of every row, up to the first that cannot be read. -/
theorem fetchAll_protocol : ∃ run, Protocol Row.numberAt .default s executor run ∧
    Fetches (fun rows => rows.mapM fun row => row.readAll wanted) run
      (s.fetchAll executor wanted) :=
  ⟨_, s.run_protocol .default executor, (s.run_protocol .default executor).fetches hkind _⟩

/-- Columns are read of the first row only, and if there is none nothing is read. -/
theorem fetchFirst_protocol : ∃ run, Protocol Row.numberAt .default s executor run ∧
    Fetches (fun rows => rows.head?.mapM fun row => row.readAll wanted) run
      (s.fetchFirst executor wanted) := by
  refine ⟨_, s.run_protocol .default executor, ?_⟩
  have hfetches := (s.run_protocol .default executor).fetches hkind
    fun rows => rows.head?.mapM fun row => row.readAll wanted
  have hread : s.fetchFirst executor wanted = (s.run .default executor).andThen fun output =>
      output.toRows.head?.mapM fun row => row.readAll wanted := by
    rw [fetchFirst]
    congr 1
    funext output
    cases output.toRows <;> rfl
  rwa [hread]

end Statement

end ParamSql
