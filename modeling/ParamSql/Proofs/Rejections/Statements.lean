import ParamSql.Proofs.Rejections.Insert

/-!
# What a statement is rejected for

`Recipe.rejections` lists all that is wrong with a statement, in terms of the calls that build it
and in the order in which it is reported: what the calls leave in the statement, its table, and its
clauses one after the other. A statement compiles exactly if nothing is wrong with it, and is
rejected for the first thing otherwise.

Results:
* `Select.fault_eq`, `Delete.fault_eq`, `Update.fault_eq`: the fault that calls leave.
* `Predicate.reports_required`: the conditions of a statement that has to have some.
* `Recipe.reports_phrase`: a statement of any kind.
* `Recipe.compile_reports`: what it compiles to, or is rejected for.
-/

namespace ParamSql

variable {α : Type}

open Predicate.Call (anyReal)

/-! ## SELECT -/

namespace Select

/-- What is wrong with the names of a call, in order. -/
def Call.faults : Call α → List Identifier.Fault
  | .columns names => entryFaults names
  | .join _ table on => nameFaults (on.names table)
  | .lock _ tables _ => nameFaults tables
  | _ => []

theorem fault_addJoin (s : Select α) (kind : JoinKind) (table : String) (on : JoinOn) :
    (s.addJoin kind table on).fault = s.fault.or (nameFaults (on.names table)).head? := by
  have hparse := Join.reports_parse kind table on
  cases hf : nameFaults (on.names table) with
  | nil =>
    rw [hf] at hparse
    obtain ⟨join, hjoin⟩ := hparse
    rw [addJoin, hjoin]
    exact Option.or_none.symm
  | cons fault rest =>
    rw [hf] at hparse
    rw [addJoin, (hparse.error_iff fault).2 rfl]
    rfl

/-- The fault of a SELECT is the first that is wrong with the names of its calls. -/
theorem fault_eq (table : String) (calls : List (Call α)) :
    (ofCalls table calls).fault = (calls.flatMap Call.faults).head? := by
  refine (foldl_first_field fault (fun s call => ?_) calls (ofTable table)).trans
    (Option.none_or ..)
  cases call with
  | columns names => exact congrArg s.fault.or (Projection.fault_parseAll_eq names)
  | join kind table on => exact fault_addJoin s kind table on
  | lock mode tables policy =>
    rw [apply, addLock_eq]
    exact congrArg s.fault.or (RowLock.fault_parseTables_eq tables)
  | projections entries => exact Option.or_none.symm
  | order keys => exact Option.or_none.symm
  | limit n => exact Option.or_none.symm
  | offset n => exact Option.or_none.symm
  | filter call => exact Option.or_none.symm

/-- The part from FROM to WHERE of a statement with these filters. -/
theorem reports_source {s : Select α} {filters : List (Predicate.Call α)}
    (h : s.predicate = .ofCalls filters) :
    Reports s.source (nameRejections [s.table] ++ recordedFilters filters) := by
  have hwhere := Predicate.reports_whereClause filters
  rw [← h] at hwhere
  exact (reports_expect s.table).bind fun _ _ => hwhere.bind_pure _

/-- All that is wrong with a SELECT. -/
def rejections (table : String) (calls : List (Call α)) : List Rejection :=
  recordedNames (calls.flatMap Call.faults) ++ nameRejections [table] ++
    recordedFilters (calls.filterMap Call.filter?) ++
    (calls.flatMap Call.keys).flatMap SortKey.rejections

theorem reports_phrase (table : String) (calls : List (Call α)) :
    Reports (ofCalls table calls).phrase (rejections table calls) := by
  have hsource := reports_source (predicate_ofCalls table calls)
  rw [table_ofCalls] at hsource
  rw [rejections, List.append_assoc, List.append_assoc, ← List.append_assoc (nameRejections _),
    phrase, fault_eq, order_ofCalls]
  exact (reports_recordedNames _).bind fun _ _ => hsource.bind fun _ _ =>
    (SortKey.reports_clause _).bind_pure _

end Select

namespace Count

/-- All that is wrong with a SELECT COUNT(*): an order that does not stand in it does not count. -/
def rejections (table : String) (calls : List (Select.Call α))
    (filters : List (Predicate.Call α)) : List Rejection :=
  recordedNames (calls.flatMap Select.Call.faults) ++ nameRejections [table] ++
    recordedFilters (calls.filterMap Select.Call.filter? ++ filters)

theorem reports_phrase (table : String) (calls : List (Select.Call α))
    (filters : List (Predicate.Call α)) :
    Reports (ofCalls table calls filters).phrase (rejections table calls filters) := by
  have hselect := select_ofCalls table calls filters
  have hsource := Select.reports_source (congrArg Select.predicate hselect)
  have htable : (ofCalls table calls filters).select.table = table :=
    (congrArg Select.table hselect).trans (Select.table_ofCalls table calls)
  have hfault : (ofCalls table calls filters).select.fault =
      (calls.flatMap Select.Call.faults).head? :=
    (congrArg Select.fault hselect).trans (Select.fault_eq table calls)
  rw [htable] at hsource
  rw [rejections, List.append_assoc, phrase, hfault]
  exact (reports_recordedNames _).bind fun _ _ => hsource.bind_pure _

end Count

/-! ## UPDATE and DELETE -/

/-- What is wrong with the conditions of a statement that has to have some. -/
def conditionRejections (filters : List (Predicate.Call α)) : List Rejection :=
  recordedFilters filters ++ if ¬ anyReal filters then [.noConditions] else []

/-- The conditions of a statement that has to have some, with what is written behind them. -/
theorem Predicate.reports_required (filters : List (Predicate.Call α))
    (rest : Phrase α → Phrase α) :
    Reports (do
      let condition ← (ofCalls filters).whereClause
      (ofCalls filters).require .noConditions
      return rest condition) (conditionRejections filters) := by
  refine (reports_whereClause filters).bind fun condition hcondition => ?_
  have hvalid : Call.AllValid filters := by
    rw [← allFaults_eq_nil_iff, ← List.map_eq_nil_iff]
    exact (reports_whereClause filters).ok_iff.1 ⟨condition, hcondition⟩
  have hreal : (ofCalls filters).isEmpty = true ↔ ¬ anyReal filters = true := by
    rw [← isEmpty_ofCalls hvalid, Bool.not_eq_false]
  exact Reports.bind_pure (.ite hreal (fun _ => reports_error _ _) fun _ => reports_ok _) _

namespace Delete

/-- What is wrong with the names of a call, in order. -/
def Call.faults : Call α → List Identifier.Fault
  | .returning names => entryFaults names
  | .filter _ => []

/-- The fault of a DELETE is the first that is wrong with its RETURNING clause. -/
theorem fault_eq (table : String) (calls : List (Call α)) :
    (ofCalls table calls).fault = (calls.flatMap Call.faults).head? := by
  refine (foldl_first_field fault (fun d call => ?_) calls (ofTable table)).trans
    (Option.none_or ..)
  cases call with
  | filter call => exact Option.or_none.symm
  | returning names => exact congrArg d.fault.or (Projection.fault_parseAll_eq names)

/-- All that is wrong with a DELETE. -/
def rejections (table : String) (calls : List (Call α)) : List Rejection :=
  recordedNames (calls.flatMap Call.faults) ++ nameRejections [table] ++
    conditionRejections (calls.filterMap Call.filter?)

theorem reports_phrase (table : String) (calls : List (Call α)) :
    Reports (ofCalls table calls).phrase (rejections table calls) := by
  rw [rejections, List.append_assoc, phrase, fault_eq, table_ofCalls, predicate_ofCalls]
  exact (reports_recordedNames _).bind fun _ _ => (reports_expect table).bind fun _ _ =>
    Predicate.reports_required _ _

end Delete

namespace Update

/-- What is wrong with the names of a call, in order. -/
def Call.faults : Call α → List Identifier.Fault
  | .returning names => entryFaults names
  | _ => []

/-- The fault of an UPDATE is the first that is wrong with its RETURNING clause. -/
theorem fault_eq (table : String) (calls : List (Call α)) :
    (ofCalls table calls).fault = (calls.flatMap Call.faults).head? := by
  refine (foldl_first_field fault (fun u call => ?_) calls (ofTable table)).trans
    (Option.none_or ..)
  cases call with
  | set column assigned => exact Option.or_none.symm
  | setAll columns => exact Option.or_none.symm
  | filter call => exact Option.or_none.symm
  | returning names => exact congrArg u.fault.or (Projection.fault_parseAll_eq names)

/-- What is wrong with a SET list. -/
def setRejections (columns : List String) : List Rejection :=
  if columns = [] then [.noAssignments] else nameRejections columns

theorem reports_setClause (u : Update α) :
    Reports u.setClause (setRejections u.assignments.keys) := by
  refine .ite u.assignments.isEmpty_iff (fun _ => reports_error _ _) fun _ => ?_
  rw [nameRejections, nameFaults, OrderedMap.keys, List.flatMap_map, List.map_flatMap]
  refine (Reports.mapM fun entry _ => ?_).map _
  exact ((reports_faultOf (Identifier.parse entry.1)).mapError Rejection.identifier).map _

/-- The columns that calls set, in the order of the SET list. -/
def columnsSet (calls : List (Call α)) : List String :=
  (OrderedMap.ofList (calls.flatMap Call.sets)).keys

/-- All that is wrong with an UPDATE. -/
def rejections (table : String) (calls : List (Call α)) : List Rejection :=
  recordedNames (calls.flatMap Call.faults) ++ nameRejections [table] ++
    setRejections (columnsSet calls) ++ conditionRejections (calls.filterMap Call.filter?)

theorem reports_phrase (table : String) (calls : List (Call α)) :
    Reports (ofCalls table calls).phrase (rejections table calls) := by
  have hset := reports_setClause (ofCalls table calls)
  rw [assignments_eq] at hset
  rw [rejections, List.append_assoc, List.append_assoc, phrase, fault_eq, table_ofCalls,
    predicate_ofCalls]
  exact (reports_recordedNames _).bind fun _ _ => (reports_expect table).bind fun _ _ =>
    hset.bind fun _ _ => Predicate.reports_required _ _

end Update

/-! ## Statements -/

namespace Recipe

/-- All that is wrong with a statement, in the order in which it is reported. -/
def rejections : Recipe α → List Rejection
  | .select table calls => Select.rejections table calls
  | .count table calls filters => Count.rejections table calls filters
  | .insert table calls => Insert.rejections table calls
  | .update table calls => Update.rejections table calls
  | .delete table calls => Delete.rejections table calls

theorem reports_phrase (r : Recipe α) : Reports r.statement.phrase r.rejections := by
  cases r with
  | select table calls => exact Select.reports_phrase table calls
  | count table calls filters => exact Count.reports_phrase table calls filters
  | insert table calls => exact Insert.reports_phrase table calls
  | update table calls => exact Update.reports_phrase table calls
  | delete table calls => exact Delete.reports_phrase table calls

/-- A statement compiles exactly if nothing is wrong with it, and is rejected for a cause exactly if
that is the first thing that is wrong. -/
theorem compile_reports (r : Recipe α) :
    ((∃ query, r.statement.compile = .ok query) ↔ r.rejections = []) ∧
      ∀ cause, r.statement.compile = .error cause ↔ r.rejections.head? = some cause := by
  have h := r.reports_phrase.map Phrase.query
  exact ⟨h.ok_iff, h.error_iff⟩

end Recipe

end ParamSql
