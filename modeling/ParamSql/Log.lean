import ParamSql.Statement

/-!
# The log of statements

Every submitted statement makes two events: one before it is sent, and one when it has finished or
failed. Long text is cut.

Models `SqlLog`.

Results:
* `truncate_short`, `truncate_long`: what is cut, and how that is shown.
-/

namespace ParamSql

variable {α : Type}

/-- How important an event is. -/
inductive Level where
  | error
  | warn
  | info
  | debug
  | trace
  deriving DecidableEq, Repr

/-- The name of a level. -/
def Level.name : Level → String
  | .error => "ERROR"
  | .warn => "WARN"
  | .info => "INFO"
  | .debug => "DEBUG"
  | .trace => "TRACE"

/-- The level of ordinary events, and the greatest number of characters shown of a statement
(`SqlLog`). -/
structure LogSettings where
  level : Level
  maxLength : Option Nat
  deriving DecidableEq, Repr

/-- What an event says. -/
inductive LogEntry where
  | submitting (kind : StatementKind) (values : Nat) (sql : String)
  | finished (kind : StatementKind) (rows : Nat)
  | failed (kind : StatementKind) (code : String) (error : String)
  deriving DecidableEq, Repr

/-- An event of the log. -/
structure LogEvent where
  level : Level
  entry : LogEntry
  deriving DecidableEq, Repr

/-- The message of an event. -/
def LogEntry.message : LogEntry → String
  | .submitting .. => "submitting statement"
  | .finished .. => "statement finished"
  | .failed .. => "statement failed"

namespace LogSettings

/-- Events for finding faults, with at most 200 characters of a statement. -/
def default : LogSettings := ⟨.debug, some 200⟩

/-- The text as it is shown: whole, or its first characters and three dots (`SqlLog.truncate`). -/
def truncate (l : LogSettings) (sql : String) : String :=
  match l.maxLength with
  | none => sql
  | some n =>
    if sql.toList.length ≤ n then sql else String.ofList (sql.toList.take n ++ ['.', '.', '.'])

/-- The event before a statement is sent (`SqlLog.submitting`). -/
def submitting (l : LogSettings) (kind : StatementKind) (query : Query α) : LogEvent :=
  ⟨l.level, .submitting kind query.values.length (l.truncate query.sql)⟩

/-- The event after a statement has finished (`SqlLog.finished`). -/
def finished (l : LogSettings) (kind : StatementKind) (rows : Nat) : LogEvent :=
  ⟨l.level, .finished kind rows⟩

/-- What stands for the code of an error that has none. -/
def noCode : String := "-"

/-- The event after a statement has failed; it is always a warning (`SqlLog.failed`). -/
def failed (kind : StatementKind) (error : Error) : LogEvent :=
  ⟨.warn, .failed kind (error.code?.getD noCode) error.message⟩

theorem truncate_short {l : LogSettings} {sql : String}
    (h : ∀ n ∈ l.maxLength, sql.toList.length ≤ n) : l.truncate sql = sql := by
  unfold truncate
  split
  · rfl
  · rename_i n hn
    rw [if_pos (h n hn)]

theorem truncate_long {l : LogSettings} {sql : String} {n : Nat} (hn : l.maxLength = some n)
    (h : n < sql.toList.length) :
    l.truncate sql = String.ofList (sql.toList.take n ++ ['.', '.', '.']) := by
  simp only [truncate, hn]
  rw [if_neg (by omega)]

end LogSettings

end ParamSql
