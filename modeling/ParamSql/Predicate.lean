import ParamSql.Error
import ParamSql.OrderedMap
import ParamSql.Template

/-!
# Predicates

A predicate is a list of conditions, each with the junction that ties it to everything before it.
It is read from the left: when AND follows a text with OR at its top, that text is put in
parentheses, so that `a = 1`, OR `b = 2`, AND `c = 3` is written `(a = $1 OR b = $2) AND c = $3`.
Conditions without text are passed over, and the junction of the first one with text has no effect.

`x IN ()` is `FALSE` and `x NOT IN ()` is `TRUE`. A predicate without conditions has no text; the
statements decide whether that is allowed.

A condition with a name that is no identifier, or a template with another number of values than
placeholders, is not added; the first such fault is recorded and refuses the predicate.

Models `Predicate` and what the methods of `Filter` add to one.

Results:
* `phrase_empty`: the predicate without conditions has no text.
* `compile_eq_ok_iff`: a predicate compiles exactly if no fault is recorded.
-/

namespace ParamSql

variable {α : Type}

/-- How a condition is tied to everything before it (`Connector`). -/
inductive Junction where
  | and
  | or
  deriving DecidableEq, Repr

/-- The name of a column: text that is still to be read, or an identifier (`IntoIdent`). -/
inductive ColumnName where
  | text (name : String)
  | known (x : Identifier)
  deriving DecidableEq, Repr

/-- The identifier of a column (`IntoIdent.into_ident`). -/
def ColumnName.resolve : ColumnName → Except Identifier.Fault Identifier
  | .text name => Identifier.parse name
  | .known x => .ok x

/-- One condition of a predicate (`Condition`). -/
inductive Condition (α : Type) where
  /-- Every column equals its value. -/
  | equal (pairs : List (Identifier × α))
  /-- The column is, or if `negated` is not, among the values. -/
  | among (column : Identifier) (values : List α) (negated : Bool)
  | raw (phrase : Phrase α)
  /-- Every row. -/
  | all
  /-- Conditions in parentheses. -/
  | group (conditions : List (Junction × Condition α))

/-- A list of conditions, and the first fault that was met in building it (`Predicate`). -/
structure Predicate (α : Type) where
  conditions : List (Junction × Condition α)
  fault : Option BuildFault

/-! ## Writing a list of conditions -/

/-- Conditions written so far, and whether their text has an OR at its top. -/
structure Joined (α : Type) where
  phrase : Phrase α
  hasOr : Bool

namespace Joined

/-- The text as an operand of AND. -/
def operand (j : Joined α) : Phrase α := if j.hasOr then j.phrase.parens else j.phrase

/-- Adds a condition that has text. -/
def add : Option (Joined α) → Junction × Phrase α → Option (Joined α)
  | none, (_, next) => some ⟨next, false⟩
  | some j, (.and, next) => some ⟨.seq " AND " [j.operand, next], false⟩
  | some j, (.or, next) => some ⟨.seq " OR " [j.phrase, next], true⟩

/-- The text of a list of written conditions. -/
def phraseOf (conditions : List (Junction × Phrase α)) : Phrase α :=
  match (conditions.filter fun c => !c.2.isEmpty).foldl add none with
  | none => .empty
  | some j => j.phrase

end Joined

namespace Condition

/-- One equality. -/
def equality (pair : Identifier × α) : Phrase α :=
  .concat [.name pair.1, .keyword " = ", .value pair.2]

/-- The conjunction of equalities, in parentheses if there are several. -/
def equalities (pairs : List (Identifier × α)) : Phrase α :=
  match pairs with
  | [] => .empty
  | [pair] => equality pair
  | pairs => .parens (.seq " AND " (pairs.map equality))

/-- A test for membership; among no values there is none. -/
def membership (column : Identifier) (values : List α) (negated : Bool) : Phrase α :=
  if values.isEmpty then .keyword (if negated then "TRUE" else "FALSE")
  else
    .concat [.name column, .keyword (if negated then " NOT IN (" else " IN ("),
      .listed (values.map .value), .keyword ")"]

/-- A group in parentheses, or nothing if it has no text. -/
def grouped (body : Phrase α) : Phrase α := if body.isEmpty then body else body.parens

mutual

/-- The condition as a phrase (`Condition.to_fragment`). -/
def phrase : Condition α → Phrase α
  | .equal pairs => equalities pairs
  | .among column values negated => membership column values negated
  | .raw phrase => phrase
  | .all => .keyword "TRUE"
  | .group conditions => grouped (Joined.phraseOf (phrases conditions))

/-- The conditions of a list as phrases. -/
def phrases : List (Junction × Condition α) → List (Junction × Phrase α)
  | [] => []
  | (junction, condition) :: rest => (junction, phrase condition) :: phrases rest

end

end Condition

namespace Predicate

/-- The predicate without conditions. -/
def empty : Predicate α := ⟨[], none⟩

instance : EmptyCollection (Predicate α) := ⟨empty⟩

instance : Inhabited (Predicate α) := ⟨empty⟩

/-- The predicate as a phrase, whatever fault is recorded (`Predicate.to_fragment`). -/
def phrase (p : Predicate α) : Phrase α := Joined.phraseOf (Condition.phrases p.conditions)

/-- Whether the predicate has no text (`Predicate.is_empty`). -/
def isEmpty (p : Predicate α) : Bool := p.phrase.isEmpty

/-- The predicate as a phrase; refused if a fault is recorded (`Predicate.compile`). -/
def compile (p : Predicate α) : Except Rejection (Phrase α) :=
  (BuildFault.check p.fault).map fun _ => p.phrase

/-- Refuses a predicate without text (`Predicate.require_non_empty`). -/
def require (p : Predicate α) (cause : Rejection) : Except Rejection Unit :=
  if p.isEmpty then .error cause else .ok ()

/-- The WHERE clause, or nothing if the predicate has no text (`Predicate.where_clause`). -/
def whereClause (p : Predicate α) : Except Rejection (Phrase α) :=
  p.compile.map (Phrase.ledBy "WHERE ")

/-! ## Building -/

/-- Records a fault unless there is one (`Predicate.record_error`). -/
def record (p : Predicate α) (fault : BuildFault) : Predicate α :=
  { p with fault := p.fault.or (some fault) }

/-- Adds a condition (`Predicate.push`). -/
def add (p : Predicate α) (junction : Junction) (condition : Condition α) : Predicate α :=
  { p with conditions := p.conditions ++ [(junction, condition)] }

/-- Adds a condition that was made of what the caller gave, or records why it could not be made. -/
def addResult (p : Predicate α) (junction : Junction) :
    Except BuildFault (Condition α) → Predicate α
  | .ok condition => p.add junction condition
  | .error fault => p.record fault

/-- The identifier of a column, with a fault to record (`Predicate.resolve`). -/
def column (name : ColumnName) : Except BuildFault Identifier :=
  name.resolve.mapError .identifier

/-- A column given as text with its value, the text read. -/
def pairOf (entry : String × α) : Except BuildFault (Identifier × α) :=
  (column (.text entry.1)).map fun x => (x, entry.2)

/-- `column = value` (`Filter.eq`, `Filter.or_eq`). -/
def equal (p : Predicate α) (junction : Junction) (name : ColumnName) (value : α) :
    Predicate α :=
  p.addResult junction ((column name).map fun x => .equal [(x, value)])

/-- An equality for each column, as one condition (`Filter.eq_map`). -/
def equalAll (p : Predicate α) (columns : OrderedMap α) : Predicate α :=
  p.addResult .and ((columns.entries.mapM pairOf).map .equal)

/-- `column IN (values)` (`Filter.is_in`, `Filter.or_is_in`). -/
def oneOf (p : Predicate α) (junction : Junction) (name : ColumnName) (values : List α) :
    Predicate α :=
  p.addResult junction ((column name).map fun x => .among x values false)

/-- `column NOT IN (values)` (`Filter.not_in`). -/
def noneOf (p : Predicate α) (name : ColumnName) (values : List α) : Predicate α :=
  p.addResult .and ((column name).map fun x => .among x values true)

/-- A condition in the caller's words, written as it is (`Filter.raw`, `Filter.or_raw`). -/
def raw (p : Predicate α) (junction : Junction) (sql : String) : Predicate α :=
  p.add junction (.raw (.raw sql))

/-- A condition in the caller's words with a value for each `?` (`Filter.template`). -/
def template (p : Predicate α) (sql : String) (values : List α) : Predicate α :=
  p.addResult .and <|
    match Template.phrase? sql values with
    | some phrase => .ok (.raw phrase)
    | none =>
      .error (.templateArity sql (Template.placeholders sql.toList) values.length)

/-- The condition that holds of every row (`Filter.match_all`). -/
def all (p : Predicate α) : Predicate α := p.add .and .all

/-- The conditions of another predicate as a group; its fault is recorded here (`Filter.nest`,
`Filter.or_nest`). -/
def group (p : Predicate α) (junction : Junction) (inner : Predicate α) : Predicate α :=
  { p with fault := p.fault.or inner.fault }.add junction (.group inner.conditions)

/-- Whether a condition after the first is tied with OR. -/
def hasOr (p : Predicate α) : Bool := p.conditions.tail.any (·.1 = .or)

/-- Both predicates: the conditions of the other one are tied with AND, as a group if there is an OR
among them (`Filter.merge`). A predicate without text takes them as they are. -/
def merge (p other : Predicate α) : Predicate α :=
  let added :=
    if p.isEmpty then other.conditions
    else if other.hasOr then [(.and, .group other.conditions)]
    else other.conditions.map fun c => (.and, c.2)
  ⟨p.conditions ++ added, p.fault.or other.fault⟩

@[simp] theorem phrase_empty : (∅ : Predicate α).phrase.isEmpty = true := rfl

theorem compile_eq_ok_iff (p : Predicate α) (phrase : Phrase α) :
    p.compile = .ok phrase ↔ p.fault = none ∧ p.phrase = phrase := by
  cases h : p.fault <;> simp [compile, BuildFault.check, Except.map, h]

end Predicate

end ParamSql
