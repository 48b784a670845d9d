import ParamSql.Identifier.Parser
import ParamSql.Phrase

/-!
# Row locks

The locking clauses of a SELECT: how strong the lock is, on rows of which tables, and what happens
when a row is locked already.

Models `LockSpec`.
-/

namespace ParamSql

variable {α : Type}

/-- How strong a lock is (`LockMode`). -/
inductive LockMode where
  | update
  | noKeyUpdate
  | share
  | keyShare
  deriving DecidableEq, Repr

/-- What happens when a row is locked already (`WaitPolicy`). -/
inductive WaitPolicy where
  | wait
  | noWait
  | skipLocked
  deriving DecidableEq, Repr

/-- One locking clause; no tables stands for all of them (`LockSpec`). -/
structure RowLock where
  mode : LockMode
  tables : List Identifier
  wait : WaitPolicy
  deriving DecidableEq, Repr

namespace RowLock

/-- The words of a lock (`LockMode.keyword`). -/
def modeText : LockMode → String
  | .update => "FOR UPDATE"
  | .noKeyUpdate => "FOR NO KEY UPDATE"
  | .share => "FOR SHARE"
  | .keyShare => "FOR KEY SHARE"

/-- The words of a wait policy; waiting needs none. -/
def waitText : WaitPolicy → String
  | .wait => ""
  | .noWait => "NOWAIT"
  | .skipLocked => "SKIP LOCKED"

/-- The tables among names given as text, and the fault of the first name that is none. -/
def parseTables (names : List String) : List Identifier × Option Identifier.Fault :=
  let read := names.map Identifier.parse
  (read.filterMap Except.toOption, read.findSome? fun
    | .ok _ => none
    | .error fault => some fault)

/-- Sets the wait policy of the last lock of a list. -/
def setLastWait (policy : WaitPolicy) (locks : List RowLock) : List RowLock :=
  match locks.getLast? with
  | some last => locks.dropLast ++ [{ last with wait := policy }]
  | none => locks

/-- The lock as a phrase (`LockSpec.to_fragment`). -/
def phrase (l : RowLock) : Phrase α :=
  .spaced [.keyword (modeText l.mode), .ledBy "OF " (.listed (l.tables.map .name)),
    .keyword (waitText l.wait)]

/-- All locks of a statement (`compile_locks`). -/
def clause (locks : List RowLock) : Phrase α := .spaced (locks.map phrase)

@[simp] theorem setLastWait_append (policy : WaitPolicy) (locks : List RowLock) (last : RowLock) :
    setLastWait policy (locks ++ [last]) = locks ++ [{ last with wait := policy }] := by
  simp [setLastWait]

end RowLock

end ParamSql
