import ParamSql.Delete
import ParamSql.Insert
import ParamSql.Select
import ParamSql.Update

/-!
# Statements

A statement of any kind, and what it compiles to. Compiling never sends anything: a statement is
rejected here or not at all.

Models `Statement` and its kinds.

Results:
* `compile_eq_ok_iff`: a statement compiles exactly if its phrase can be formed.
-/

namespace ParamSql

variable {α : Type}

/-- The kind of a statement (`StatementKind`). -/
inductive StatementKind where
  | select
  | count
  | insert
  | update
  | delete
  deriving DecidableEq, Repr

/-- The name of a kind. -/
def StatementKind.name : StatementKind → String
  | .select => "Select"
  | .count => "Count"
  | .insert => "Insert"
  | .update => "Update"
  | .delete => "Delete"

/-- A statement (`Statement`). -/
inductive Statement (α : Type) where
  | select (s : Select α)
  | count (c : Count α)
  | insert (i : Insert α)
  | update (u : Update α)
  | delete (d : Delete α)

namespace Statement

/-- The kind of the statement. -/
def kind : Statement α → StatementKind
  | .select _ => .select
  | .count _ => .count
  | .insert _ => .insert
  | .update _ => .update
  | .delete _ => .delete

/-- The statement as a phrase (`Statement.to_fragment`). -/
def phrase : Statement α → Except Rejection (Phrase α)
  | .select s => s.phrase
  | .count c => c.phrase
  | .insert i => i.phrase
  | .update u => u.phrase
  | .delete d => d.phrase

/-- The statement as text with placeholders and the values that they stand for
(`Statement.compile`). -/
def compile (s : Statement α) : Except Rejection (Query α) := s.phrase.map Phrase.query

/-- The text of the statement; for a rejected one a comment that says why (`Statement.to_sql`). -/
def sql (s : Statement α) : String :=
  match s.compile with
  | .ok query => query.sql
  | .error cause => "/* " ++ (Error.validation cause).message ++ " */"

theorem compile_eq_ok_iff (s : Statement α) (query : Query α) :
    s.compile = .ok query ↔ ∃ phrase, s.phrase = .ok phrase ∧ phrase.query = query := by
  cases h : s.phrase <;> simp [compile, Except.map, h]

end Statement

end ParamSql
