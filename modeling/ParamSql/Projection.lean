import ParamSql.Error
import ParamSql.Phrase
import ParamSql.Text.Blank

/-!
# Column lists

What a SELECT or a RETURNING clause shows: single columns, all columns of a table, or all columns.
In a list the wildcards come first and the single columns after them, each group in the order in
which it was given, repetitions included.

Models `ColumnSpec` and the lists of them.

Results:
* `mem_arrange`: no entry is lost or added.
-/

namespace ParamSql

variable {α : Type}

/-- One entry of a column list (`ColumnSpec`). -/
inductive Projection where
  | column (name : Identifier)
  /-- All columns of a table. -/
  | table (name : Identifier)
  /-- All columns. -/
  | all
  deriving DecidableEq, Repr

namespace Projection

/-- The text without a final `.*`, if it has one. -/
def stripWildcard? (cs : List Char) : Option (List Char) :=
  match cs.reverse with
  | '*' :: '.' :: rest => some rest.reverse
  | _ => none

/-- Reads an entry: `*`, `table.*` or a column (`ColumnSpec.parse`). Blanks around it do not
count. -/
def parse (input : String) : Except Identifier.Fault Projection :=
  let cs := Text.trim input.toList
  if cs = ['*'] then .ok .all
  else
    match stripWildcard? cs with
    | some owner => (Identifier.parse (String.ofList owner)).map .table
    | none => (Identifier.parse (String.ofList cs)).map .column

/-- Reads entries up to the first that is refused; returns those before it and its fault
(`parse_into`). -/
def parseAll : List String → List Projection × Option Identifier.Fault
  | [] => ([], none)
  | input :: rest =>
    match parse input with
    | .ok entry =>
      let (entries, fault) := parseAll rest
      (entry :: entries, fault)
    | .error fault => ([], some fault)

/-- Whether the entry stands for any number of columns (`ColumnSpec.is_wildcard`). -/
def isWildcard : Projection → Bool
  | .column _ => false
  | .table _ => true
  | .all => true

/-- The entry as a phrase (`ColumnSpec.to_fragment`). -/
def phrase : Projection → Phrase α
  | .column name => .name name
  | .table name => .concat [.name name, .keyword ".*"]
  | .all => .keyword "*"

/-- The entries in the order in which they are written. -/
def arrange (entries : List Projection) : List Projection :=
  entries.filter isWildcard ++ entries.filter fun e => !e.isWildcard

/-- A column list; an empty one shows all columns (`construct_column_selection`). -/
def selection (entries : List Projection) : Phrase α :=
  if entries.isEmpty then .keyword "*" else .listed ((arrange entries).map phrase)

/-- The RETURNING clause, or nothing for an empty list (`returning_clause`). -/
def returning (entries : List Projection) : Phrase α :=
  if entries.isEmpty then .empty else .concat [.keyword "RETURNING ", selection entries]

theorem mem_arrange (entry : Projection) (entries : List Projection) :
    entry ∈ arrange entries ↔ entry ∈ entries := by
  simp only [arrange, List.mem_append, List.mem_filter]
  cases entry.isWildcard <;> simp

end Projection

end ParamSql
