import ParamSql.Statement

/-!
# Statements from calls

A statement of every kind is built by a list of calls, in any order; a `Recipe` is a statement in
terms of what its caller does.

Results:
* `Recipe.statement`: the statement that is built.
-/

namespace ParamSql

variable {α : Type}

/-- The SELECT built by calls, the first one first. -/
def Select.ofCalls (table : String) (calls : List (Select.Call α)) : Select α :=
  calls.foldl apply (ofTable table)

/-- The SELECT COUNT(*) of a SELECT, with further filters. -/
def Count.ofCalls (table : String) (calls : List (Select.Call α))
    (filters : List (Predicate.Call α)) : Count α :=
  filters.foldl addFilter (Select.ofCalls table calls).count

/-- The INSERT built by calls, the first one first. -/
def Insert.ofCalls (table : String) (calls : List (Insert.Call α)) : Insert α :=
  calls.foldl apply (ofTable table)

/-- The UPDATE built by calls, the first one first. -/
def Update.ofCalls (table : String) (calls : List (Update.Call α)) : Update α :=
  calls.foldl apply (ofTable table)

/-- The DELETE built by calls, the first one first. -/
def Delete.ofCalls (table : String) (calls : List (Delete.Call α)) : Delete α :=
  calls.foldl apply (ofTable table)

/-- How a statement is built: its table, and the calls on it. -/
inductive Recipe (α : Type) where
  | select (table : String) (calls : List (Select.Call α))
  | count (table : String) (calls : List (Select.Call α)) (filters : List (Predicate.Call α))
  | insert (table : String) (calls : List (Insert.Call α))
  | update (table : String) (calls : List (Update.Call α))
  | delete (table : String) (calls : List (Delete.Call α))

/-- The statement that is built. -/
def Recipe.statement : Recipe α → Statement α
  | .select table calls => .select (.ofCalls table calls)
  | .count table calls filters => .count (.ofCalls table calls filters)
  | .insert table calls => .insert (.ofCalls table calls)
  | .update table calls => .update (.ofCalls table calls)
  | .delete table calls => .delete (.ofCalls table calls)

end ParamSql
