import ParamSql.Predicate

/-!
# Conflicts of an INSERT

The ON CONFLICT clause: what a conflict is found on, and what is done about it. The filter stands
before `DO NOTHING`, where it picks an index, and after `DO UPDATE`, where it picks rows.

Models `ConflictSpec`, which `OnConflictQb` sets.
-/

namespace ParamSql

variable {α : Type}

/-- What a conflict is found on, by name (`ConflictTarget`). -/
inductive ConflictTarget where
  | columns (names : List String)
  | constraint (name : String)
  deriving DecidableEq, Repr

/-- The columns that an update of the row in conflict sets (`UpdateSet`). -/
inductive UpdateSet (α : Type) where
  /-- Every inserted column, to the value that was to be inserted. -/
  | inserted
  /-- These columns, to the values that were to be inserted. -/
  | columns (names : List String)
  /-- These columns, to values of their own. -/
  | values (columns : OrderedMap α)

/-- What is done about a conflict (`ConflictAction`). -/
inductive ConflictAction (α : Type) where
  | nothing
  | update (set : UpdateSet α)

/-- An ON CONFLICT clause (`ConflictSpec`). -/
structure Conflict (α : Type) where
  target : ConflictTarget
  action : ConflictAction α
  filter : Predicate α

/-- The target as a phrase (`ConflictSpec.target_fragment`). -/
def ConflictTarget.phrase : ConflictTarget → Except Rejection (Phrase α)
  | .columns names => do
    if names.isEmpty then throw .noTargetColumns
    let columns ← names.mapM Identifier.expect
    return .parens (.listed (columns.map .name))
  | .constraint name => do
    let name ← (Identifier.parse name).mapError .constraintName
    return .concat [.keyword "ON CONSTRAINT ", .name name]

/-- Whether the target is a constraint. -/
def ConflictTarget.isConstraint : ConflictTarget → Bool
  | .columns _ => false
  | .constraint _ => true

/-- Sets a column to the value that was to be inserted (`excluded_assignment`). The column is never
qualified. -/
def excluded (column : Identifier) : Phrase α :=
  .concat [.name column.last, .keyword " = EXCLUDED.", .name column.last]

/-- Assignments of inserted values; there has to be one. -/
def excludedAll (columns : List Identifier) : Except Rejection (Phrase α) :=
  if columns.isEmpty then .error .noUpdateColumns else .ok (.listed (columns.map excluded))

/-- The assignments of an update, for an INSERT into these columns (`update_set`). -/
def UpdateSet.phrase (inserted : List Identifier) : UpdateSet α → Except Rejection (Phrase α)
  | .inserted => excludedAll inserted
  | .columns names => do
    let columns ← names.mapM Identifier.expect
    excludedAll columns
  | .values set => do
    if set.isEmpty then throw .noUpdateValues
    let columns ← set.keys.mapM Identifier.expect
    return .concat [.parens (.listed (columns.map fun column => .name column.last)),
      .keyword " = ROW(", .listed (set.values.map .value), .keyword ")"]

namespace Conflict

/-- The action as a phrase, with the filter at its place. -/
def actionPhrase (c : Conflict α) (inserted : List Identifier) (filter : Phrase α) :
    Except Rejection (Phrase α) :=
  match c.action with
  | .nothing =>
    if !filter.isEmpty && c.target.isConstraint then .error .constraintFilter
    else .ok (.spaced [.ledBy "WHERE " filter, .keyword "DO NOTHING"])
  | .update set =>
    (set.phrase inserted).map fun assignments =>
      .spaced [.keyword "DO UPDATE SET", assignments, .ledBy "WHERE " filter]

/-- The clause as a phrase: its target is read first, then the filter, then the action
(`ConflictSpec.to_fragment`). -/
def phrase (c : Conflict α) (inserted : List Identifier) : Except Rejection (Phrase α) := do
  let target ← c.target.phrase
  let filter ← c.filter.compile
  let action ← c.actionPhrase inserted filter
  return .spaced [.keyword "ON CONFLICT", target, action]

end Conflict

end ParamSql
