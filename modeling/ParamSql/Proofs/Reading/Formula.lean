import Mathlib.Order.BoundedOrder.Lattice
import ParamSql.Predicate

/-!
# Formulas

What the text of a predicate says: a formula of AND and OR over tests of a row. The truth of a
test may be taken from any bounded lattice: from the two Boolean values, or from the three of SQL,
where `unknown` lies between the other two.

Results:
* `fold_append`: conditions after others are tied to what those say, from the left.
* `eval_fold`: the truth of tied conditions is found by tying their truths.
-/

namespace ParamSql

variable {α β T : Type}

/-- A part of a condition in the caller's words: text, or a bound value. -/
inductive Part (α : Type) where
  | text (text : String)
  | value (v : α)
  deriving DecidableEq, Repr

/-- A test of a row. Columns are spelled as in SQL. -/
inductive Test (α : Type) where
  | equal (column : List Char) (value : α)
  | among (column : List Char) (values : List α) (negated : Bool)
  /-- A condition in the caller's words, into which nobody looks. -/
  | words (parts : List (Part α))
  deriving DecidableEq, Repr

/-- A formula over tests. -/
inductive Formula (α : Type) where
  | const (b : Bool)
  | test (t : Test α)
  | and (f g : Formula α)
  | or (f g : Formula α)
  deriving DecidableEq, Repr

namespace Junction

/-- Two formulas tied to each other. -/
def join : Junction → Formula α → Formula α → Formula α
  | .and => .and
  | .or => .or

/-- The truth of what is tied to each other. -/
def combine [Lattice T] : Junction → T → T → T
  | .and, a, b => a ⊓ b
  | .or, a, b => a ⊔ b

/-- One condition more. The junction of the first one has no effect. -/
def tie (op : Junction → β → β → β) : Option β → Junction × β → Option β
  | none, (_, b) => some b
  | some a, (junction, b) => some (op junction a b)

/-- Conditions in order, each tied to all those before it; nothing if there are none. -/
def fold (op : Junction → β → β → β) (conditions : List (Junction × β)) : Option β :=
  conditions.foldl (tie op) none

variable {op : Junction → β → β → β}

@[simp] theorem fold_nil : fold op [] = none := rfl

theorem fold_append (first second : List (Junction × β)) :
    fold op (first ++ second) = second.foldl (tie op) (fold op first) := List.foldl_append

theorem foldl_tie_ne_none (a : β) (conditions : List (Junction × β)) :
    conditions.foldl (tie op) (some a) ≠ none := by
  induction conditions generalizing a with
  | nil => simp
  | cons c rest ih => exact ih _

theorem fold_eq_none_iff (conditions : List (Junction × β)) :
    fold op conditions = none ↔ conditions = [] := by
  cases conditions with
  | nil => simp
  | cons c rest =>
    have h : rest.foldl (tie op) (some c.2) ≠ none := foldl_tie_ne_none c.2 rest
    simpa [fold, tie] using h

end Junction

namespace Formula

/-- The truth of a formula, given the truth of each test. -/
def eval [Lattice T] [BoundedOrder T] (truth : Test α → T) : Formula α → T
  | .const b => if b then ⊤ else ⊥
  | .test t => truth t
  | .and f g => f.eval truth ⊓ g.eval truth
  | .or f g => f.eval truth ⊔ g.eval truth

/-- All of several formulas; nothing if there are none. -/
def conjunction : List (Formula α) → Option (Formula α)
  | [] => none
  | f :: fs => some (fs.foldl .and f)

/-- Formulas in order, each tied to all those before it. -/
def fold (conditions : List (Junction × Formula α)) : Option (Formula α) :=
  Junction.fold Junction.join conditions

section

variable [Lattice T] [BoundedOrder T] (truth : Test α → T)

theorem eval_join (junction : Junction) (f g : Formula α) :
    (junction.join f g).eval truth = junction.combine (f.eval truth) (g.eval truth) := by
  cases junction <;> rfl

/-- The truth of tied formulas is found by tying their truths. -/
theorem eval_foldl_tie (before : Option (Formula α)) (conditions : List (Junction × Formula α)) :
    (conditions.foldl (Junction.tie Junction.join) before).map (eval truth) =
      (conditions.map fun c => (c.1, c.2.eval truth)).foldl (Junction.tie Junction.combine)
        (before.map (eval truth)) := by
  induction conditions generalizing before with
  | nil => rfl
  | cons c rest ih =>
    rw [List.foldl_cons, ih, List.map_cons, List.foldl_cons]
    congr 1
    cases before with
    | none => rfl
    | some f => exact congrArg some (eval_join truth c.1 f c.2)

theorem eval_fold (conditions : List (Junction × Formula α)) :
    (fold conditions).map (eval truth) =
      Junction.fold Junction.combine (conditions.map fun c => (c.1, c.2.eval truth)) :=
  eval_foldl_tie truth none conditions

end

end Formula

end ParamSql
