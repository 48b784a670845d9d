import ParamSql.Join
import ParamSql.Projection
import ParamSql.Proofs.Predicate.Faults
import ParamSql.RowLock
import ParamSql.SortKey

/-!
# What names and conditions are rejected for

A name that is no identifier is either recorded by the call that brings it, and reported before all
others, or read when the statement compiles. This module lists what is wrong with names of both
kinds, with the conditions of a statement, and with the clauses that are made of names alone.

Results:
* `reports_expect`, `reports_mapM_expect`: names that are read when the statement compiles.
* `Projection.fault_parseAll_eq`, `RowLock.fault_parseTables_eq`, `Join.reports_parse`: names that
  are read by the calls.
* `SortKey.reports_clause`: the ORDER BY clause.
* `Predicate.reports_whereClause`: the WHERE clause.
-/

namespace ParamSql

variable {α : Type}

open Predicate.Call (allFaults)
open Text (upper)

/-! ## Names -/

/-- The text is the name of a thing. -/
def IsName (name : String) : Prop := ∃ x, Identifier.parse name = .ok x

/-- The text is an entry of a column list. -/
def IsEntry (name : String) : Prop := ∃ entry, Projection.parse name = .ok entry

instance (name : String) : Decidable (IsName name) := decidable_of_iff _ isOk_iff

instance (name : String) : Decidable (IsEntry name) := decidable_of_iff _ isOk_iff

/-- What is wrong with names that have to be identifiers. -/
def nameFaults (names : List String) : List Identifier.Fault :=
  names.flatMap fun name => faultOf (Identifier.parse name)

/-- What is wrong with the entries of a column list. -/
def entryFaults (names : List String) : List Identifier.Fault :=
  names.flatMap fun name => faultOf (Projection.parse name)

/-- What is wrong with names that are read when the statement compiles. -/
def nameRejections (names : List String) : List Rejection := (nameFaults names).map .identifier

/-- What the calls leave in a statement that is wrong with the names that they bring. -/
def recordedNames (faults : List Identifier.Fault) : List Rejection :=
  faults.map fun fault => .recorded (.identifier fault)

/-- What the calls leave in a predicate. -/
def recordedFilters (calls : List (Predicate.Call α)) : List Rejection :=
  (allFaults calls).map .recorded

theorem nameFaults_eq_nil_iff (names : List String) :
    nameFaults names = [] ↔ ∀ name ∈ names, IsName name := by
  simp only [nameFaults, List.flatMap_eq_nil_iff, faultOf_eq_nil_iff, IsName]

theorem entryFaults_eq_nil_iff (names : List String) :
    entryFaults names = [] ↔ ∀ name ∈ names, IsEntry name := by
  simp only [entryFaults, List.flatMap_eq_nil_iff, faultOf_eq_nil_iff, IsEntry]

theorem nameRejections_eq_nil_iff (names : List String) :
    nameRejections names = [] ↔ ∀ name ∈ names, IsName name := by
  rw [nameRejections, List.map_eq_nil_iff, nameFaults_eq_nil_iff]

theorem recordedFilters_eq_nil_iff (calls : List (Predicate.Call α)) :
    recordedFilters calls = [] ↔ (Predicate.ofCalls calls).fault = none := by
  rw [recordedFilters, List.map_eq_nil_iff, Predicate.allFaults_eq_nil_iff,
    Predicate.fault_ofCalls]

theorem reports_name (name : String) : Reports (Identifier.parse name) (nameFaults [name]) := by
  rw [nameFaults, List.flatMap_singleton]
  exact reports_faultOf (Identifier.parse name)

theorem reports_expect (name : String) :
    Reports (Identifier.expect name) (nameRejections [name]) :=
  (reports_name name).mapError Rejection.identifier

theorem reports_mapM_expect (names : List String) :
    Reports (names.mapM Identifier.expect) (nameRejections names) := by
  rw [nameRejections, nameFaults, List.map_flatMap]
  exact Reports.mapM fun name _ =>
    (reports_faultOf (Identifier.parse name)).mapError Rejection.identifier

theorem reports_recordedNames (faults : List Identifier.Fault) :
    Reports (Identifier.check faults.head?) (recordedNames faults) := by
  cases faults with
  | nil => exact reports_ok _
  | cons fault faults => exact reports_error _ _

theorem Projection.fault_parseAll_eq (names : List String) :
    (parseAll names).2 = (entryFaults names).head? := by
  induction names with
  | nil => rfl
  | cons name rest ih =>
    rw [parseAll, entryFaults, List.flatMap_cons, List.head?_append, ← entryFaults, ← ih]
    cases parse name <;> rfl

/-- The WHERE clause is refused for the faults of the calls that built it. -/
theorem Predicate.reports_whereClause (calls : List (Predicate.Call α)) :
    Reports (ofCalls calls).whereClause (recordedFilters calls) := (reports_compile calls).map _

/-! ## Sort keys, joins and locks -/

/-- What is wrong with a sort key: its column, its direction, its place of nulls. -/
def SortKey.rejections (k : SortKey) : List Rejection :=
  nameRejections [k.column] ++
    (if upper k.direction = ascWord ∨ upper k.direction = descWord then []
      else [.sortDirection k.direction k.column]) ++
    (k.nulls.toList.flatMap fun nulls =>
      if upper nulls = firstWord ∨ upper nulls = lastWord then [] else [.sortNulls nulls k.column])

namespace SortKey

/-- One of two words, each with its spelling. -/
theorem reports_word (word first second text other : String) (cause : Rejection) :
    Reports (if word = first then .ok text else if word = second then .ok other else .error cause)
      (if word = first ∨ word = second then [] else [cause]) := by
  by_cases hfirst : word = first
  · rw [if_pos hfirst, if_pos (.inl hfirst)]
    exact reports_ok text
  · rw [if_neg hfirst]
    exact .ite (or_iff_right hfirst).symm (fun _ => reports_ok other)
      fun _ => reports_error cause []

theorem reports_nullsText (k : SortKey) : Reports k.nullsText
    (k.nulls.toList.flatMap fun nulls => if upper nulls = firstWord ∨ upper nulls = lastWord then []
      else [.sortNulls nulls k.column]) := by
  unfold nullsText
  cases k.nulls with
  | none => exact reports_ok _
  | some nulls =>
    rw [Option.toList_some, List.flatMap_singleton]
    exact reports_word _ _ _ _ _ _

theorem reports_phrase (k : SortKey) :
    Reports (k.phrase : Except Rejection (Phrase α)) k.rejections := by
  rw [rejections, List.append_assoc]
  exact (reports_expect k.column).bind fun _ _ => (reports_word _ _ _ _ _ _).bind fun _ _ =>
    k.reports_nullsText.bind_pure _

theorem reports_clause (keys : List SortKey) :
    Reports (clause keys : Except Rejection (Phrase α)) (keys.flatMap rejections) := by
  unfold clause
  split
  · rename_i h
    rw [List.isEmpty_iff.1 h]
    exact reports_ok _
  · exact (Reports.mapM fun k _ => k.reports_phrase).map _

end SortKey

/-- The names of a join in the order in which they are read: the columns, then the table. -/
def JoinOn.names (table : String) : JoinOn → List String
  | .columns a b => [a, b, table]
  | .raw _ => [table]

theorem Join.reports_parse (kind : JoinKind) (table : String) (on : JoinOn) :
    Reports (parse kind table on) (nameFaults (on.names table)) := by
  cases on with
  | columns a b =>
    unfold parse
    simp only [pure_bind]
    exact (reports_faultOf (Identifier.parse a)).bind fun x _ =>
      (reports_faultOf (Identifier.parse b)).bind fun y _ => (reports_name table).bind_pure _
  | raw sql => exact (reports_name table).bind_pure _

theorem RowLock.fault_parseTables_eq (names : List String) :
    (parseTables names).2 = (nameFaults names).head? := by
  induction names with
  | nil => rfl
  | cons name rest ih =>
    rw [nameFaults, List.flatMap_cons, List.head?_append, ← nameFaults, ← ih]
    simp only [parseTables, List.map_cons, List.findSome?_cons]
    cases Identifier.parse name <;> rfl

end ParamSql
