import ParamSql.Identifier.Parser
import ParamSql.Phrase

/-!
# Joins

Further tables of a SELECT, written in the order in which they were added.

Models `JoinSpec`.
-/

namespace ParamSql

variable {α : Type}

/-- Whether rows without a partner are kept (`JoinKind`). -/
inductive JoinKind where
  | left
  | inner
  deriving DecidableEq, Repr

/-- The condition of a join as the caller gives it. -/
inductive JoinOn where
  | columns (a b : String)
  | raw (sql : String)
  deriving DecidableEq, Repr

/-- The condition of a join: two equal columns, or the caller's words (`JoinCondition`). -/
inductive JoinCondition where
  | columns (a b : Identifier)
  | raw (sql : String)
  deriving DecidableEq, Repr

/-- A table that is joined (`JoinSpec`). -/
structure Join where
  kind : JoinKind
  table : Identifier
  condition : JoinCondition
  deriving DecidableEq, Repr

namespace Join

/-- The words of a join (`JoinKind.keyword`). -/
def keyword : JoinKind → String
  | .left => "LEFT JOIN "
  | .inner => "INNER JOIN "

/-- A join of names given as text (`SelectQb.columns_condition`, `SelectQb.join`). The columns of
the condition are read first, then the table. -/
def parse (kind : JoinKind) (table : String) (on : JoinOn) : Except Identifier.Fault Join := do
  let condition ←
    match on with
    | .columns a b => do
      let a ← Identifier.parse a
      let b ← Identifier.parse b
      pure (JoinCondition.columns a b)
    | .raw sql => pure (JoinCondition.raw sql)
  let table ← Identifier.parse table
  return ⟨kind, table, condition⟩

/-- The condition as a phrase. -/
def conditionPhrase : JoinCondition → Phrase α
  | .columns a b => .concat [.name a, .keyword " = ", .name b]
  | .raw sql => .raw sql

/-- The join as a phrase (`JoinSpec.to_fragment`). -/
def phrase (j : Join) : Phrase α :=
  .concat [.keyword (keyword j.kind), .name j.table, .keyword " ON ", conditionPhrase j.condition]

/-- All joins of a statement (`compile_joins`). -/
def clause (joins : List Join) : Phrase α := .spaced (joins.map phrase)

end Join

end ParamSql
