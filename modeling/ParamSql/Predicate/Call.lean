import ParamSql.Predicate

/-!
# Predicates from calls

A `Call` is one step in building a predicate, as a value: a predicate is built by any list of them,
in order. The calls of a group and of a merged predicate start from no conditions.

Models any use of `Filter`.

Results:
* `applyAll_append`: calls in two lists are the calls of the first, then of the second.
-/

namespace ParamSql.Predicate

variable {α : Type}

/-- One step in building a predicate (`Filter`). -/
inductive Call (α : Type) where
  | equal (junction : Junction) (column : ColumnName) (value : α)
  | equalAll (columns : OrderedMap α)
  | oneOf (junction : Junction) (column : ColumnName) (values : List α)
  | noneOf (column : ColumnName) (values : List α)
  | raw (junction : Junction) (sql : String)
  | template (sql : String) (values : List α)
  | all
  | group (junction : Junction) (calls : List (Call α))
  | merge (calls : List (Call α))

mutual

/-- The predicate after a call. -/
def apply (p : Predicate α) : Call α → Predicate α
  | .equal junction column value => p.equal junction column value
  | .equalAll columns => p.equalAll columns
  | .oneOf junction column values => p.oneOf junction column values
  | .noneOf column values => p.noneOf column values
  | .raw junction sql => p.raw junction sql
  | .template sql values => p.template sql values
  | .all => p.all
  | .group junction calls => p.group junction (applyAll ∅ calls)
  | .merge calls => p.merge (applyAll ∅ calls)

/-- The predicate after calls, the first one first. -/
def applyAll (p : Predicate α) : List (Call α) → Predicate α
  | [] => p
  | call :: calls => applyAll (apply p call) calls

end

/-- The predicate built by calls. -/
def ofCalls (calls : List (Call α)) : Predicate α := applyAll ∅ calls

@[simp] theorem applyAll_nil (p : Predicate α) : p.applyAll [] = p := rfl

@[simp] theorem applyAll_cons (p : Predicate α) (call : Call α) (calls : List (Call α)) :
    p.applyAll (call :: calls) = (p.apply call).applyAll calls := rfl

theorem applyAll_append (p : Predicate α) (first second : List (Call α)) :
    p.applyAll (first ++ second) = (p.applyAll first).applyAll second := by
  induction first generalizing p with
  | nil => rfl
  | cons call calls ih => exact ih (p.apply call)

end ParamSql.Predicate
