import ParamSql.Proofs.Predicate.Emptiness
import ParamSql.Proofs.Rejections.Names
import ParamSql.Proofs.Statement.Fields
import ParamSql.Proofs.Statement.Rows

/-!
# What an INSERT is rejected for

The columns of the first row are read first, then the rows are compared with it, and then the last
conflict clause is read: its target, its filter, its action.

Results:
* `reports_targetColumns`: the columns of the first row.
* `reports_valuesClause`: the rows.
* `ConflictCall.reports_clause`: the conflict clause.
* `reports_phrase`: the statement.
-/

namespace ParamSql.Insert

variable {α : Type}

/-- What is wrong with the names of a call, in order. -/
def Call.faults : Call α → List Identifier.Fault
  | .returning names => entryFaults names
  | _ => []

/-- The fault of an INSERT is the first that is wrong with its RETURNING clause. -/
theorem fault_eq (table : String) (calls : List (Call α)) :
    (ofCalls table calls).fault = (calls.flatMap Call.faults).head? := by
  refine (foldl_first_field fault (fun i call => ?_) calls (ofTable table)).trans
    (Option.none_or ..)
  cases call with
  | rows added => exact Option.or_none.symm
  | returning names => exact congrArg i.fault.or (Projection.fault_parseAll_eq names)
  | conflict target filters action => exact Option.or_none.symm

/-! ## The first row -/

/-- The column that a name stands for in an INSERT. -/
def column? (name : String) : Option Identifier :=
  (Identifier.parse name).toOption.map Identifier.last

/-- What is wrong with a column behind others: its name is none, or it was there before. -/
def columnRejection (before : List String) (name : String) : List Rejection :=
  match Identifier.parse name with
  | .error fault => [.identifier fault]
  | .ok x => if x.last ∈ before.filterMap column? then [.repeatedColumn x.last.name] else []

/-- What is wrong with columns behind others. -/
def columnRejections (before : List String) : List String → List Rejection
  | [] => []
  | name :: rest => columnRejection before name ++ columnRejections (before ++ [name]) rest

theorem reports_addColumn (before : List String) (name : String) :
    Reports (addColumn (before.filterMap column?) name) (columnRejection before name) := by
  unfold addColumn columnRejection
  cases h : Identifier.parse name with
  | error fault =>
    rw [Identifier.expect_error h]
    exact reports_error _ _
  | ok x =>
    rw [Identifier.expect_ok h]
    exact .throwIf Iff.rfl (Rejection.repeatedColumn x.last.name) (reports_ok _)

theorem addColumn_column? {before : List String} {name : String} {columns : List Identifier}
    (h : addColumn (before.filterMap column?) name = .ok columns) :
    columns = (before ++ [name]).filterMap column? := by
  obtain ⟨x, hx, -, rfl⟩ := (addColumn_eq_ok_iff _ _ _).1 h
  have hcolumn : column? name = some x.last := by
    rw [column?, hx]
    rfl
  rw [List.filterMap_append, List.filterMap_cons, hcolumn]
  rfl

/-- Columns are read one after the other, each behind those that were read. -/
theorem reports_foldlM_addColumn (names before : List String) :
    Reports (names.foldlM addColumn (before.filterMap column?))
      (columnRejections before names) := by
  induction names generalizing before with
  | nil => exact reports_ok _
  | cons name rest ih =>
    rw [List.foldlM_cons, columnRejections]
    refine (reports_addColumn before name).bind fun columns h => ?_
    rw [addColumn_column? h]
    exact ih (before ++ [name])

theorem reports_targetColumns (i : Insert α) :
    Reports i.targetColumns (columnRejections [] (firstKeys i.rows)) := by
  rw [targetColumns_eq_foldlM]
  exact reports_foldlM_addColumn (firstKeys i.rows) []

/-! ## The rows -/

/-- What is wrong with the rows: there are none, or several without columns, or one of them sets
other columns than the first. -/
def rowRejections : List (OrderedMap α) → List Rejection
  | [] => [.noRows]
  | first :: more =>
    if first.keys = [] then if more = [] then [] else [.noColumns]
    else (more.zipIdx 2).flatMap fun numbered =>
      if first.keys.Perm numbered.1.keys then [] else [.rowShape numbered.2]

theorem reports_tupleAt (first : OrderedMap α) (numbered : OrderedMap α × Nat) :
    Reports (tupleAt first numbered)
      (if first.keys.Perm numbered.1.keys then [] else [.rowShape numbered.2]) :=
  .ite (sameColumns_iff _ _) (fun _ => reports_ok _) fun _ => reports_error _ _

theorem reports_valuesClause {i : Insert α} {columns : List Identifier}
    (h : i.targetColumns = .ok columns) :
    Reports (i.valuesClause columns) (rowRejections i.rows) := by
  have hempty := targetColumns_isEmpty h
  unfold valuesClause rowRejections
  cases hrows : i.rows with
  | nil => exact reports_error _ _
  | cons first more =>
    replace hempty : columns.isEmpty = first.keys.isEmpty := by
      rw [hempty, hrows]
      rfl
    by_cases hkeys : first.keys = []
    · rw [hkeys] at hempty
      simp only [hempty, hkeys, List.isEmpty_nil, if_true]
      cases more with
      | nil => exact reports_ok _
      | cons row more => exact reports_error _ _
    · rw [List.isEmpty_eq_false_iff.2 hkeys] at hempty
      simp only [hempty, hkeys, if_false, Bool.false_eq_true]
      refine Reports.map ?_ _
      have htuples := Reports.mapM fun numbered (_ : numbered ∈ (first :: more).zipIdx 1) =>
        reports_tupleAt first numbered
      rwa [List.zipIdx_cons, List.flatMap_cons, if_pos (List.Perm.refl _), List.nil_append]
        at htuples

/-! ## The conflict clause -/

/-- What is wrong with the target of a conflict clause. -/
def targetRejections : ConflictTarget → List Rejection
  | .columns names => if names = [] then [.noTargetColumns] else nameRejections names
  | .constraint name => (nameFaults [name]).map .constraintName

/-- What is wrong with the columns that are updated to the inserted values. -/
def updateRejections (inserted : List String) : UpdateSet α → List Rejection
  | .inserted => if inserted = [] then [.noUpdateColumns] else []
  | .columns names => nameRejections names ++ if names = [] then [.noUpdateColumns] else []
  | .values columns =>
    if columns.keys = [] then [.noUpdateValues] else nameRejections columns.keys

theorem reports_target (target : ConflictTarget) :
    Reports (target.phrase : Except Rejection (Phrase α)) (targetRejections target) := by
  cases target with
  | columns names =>
    exact .throwIf List.isEmpty_iff Rejection.noTargetColumns
      ((reports_mapM_expect names).bind_pure _)
  | constraint name =>
    exact ((reports_name name).mapError Rejection.constraintName).bind_pure _

theorem reports_excludedAll {columns : List Identifier} {names : List String}
    (h : columns = [] ↔ names = []) :
    Reports (excludedAll columns : Except Rejection (Phrase α))
      (if names = [] then [.noUpdateColumns] else []) :=
  .ite (List.isEmpty_iff.trans h) (fun _ => reports_error _ _) fun _ => reports_ok _

theorem reports_updateSet {columns : List Identifier} {names : List String}
    (h : columns = [] ↔ names = []) (set : UpdateSet α) :
    Reports (set.phrase columns) (updateRejections names set) := by
  cases set with
  | inserted => exact reports_excludedAll h
  | columns listed =>
    refine (reports_mapM_expect listed).bind fun columns hcolumns => reports_excludedAll ?_
    have hlength := (mapM_eq_ok_iff.1 hcolumns).length_eq
    rw [← List.length_eq_zero_iff, ← List.length_eq_zero_iff, hlength]
  | values set =>
    exact .throwIf set.isEmpty_iff Rejection.noUpdateValues
      ((reports_mapM_expect set.keys).bind_pure _)

namespace ConflictCall

/-- What is wrong with the action of a conflict clause: a constraint takes no filter. -/
def actionRejections (c : ConflictCall α) (inserted : List String) : List Rejection :=
  match c.action with
  | .nothing =>
    if Predicate.Call.anyReal c.merges ∧ c.target.isConstraint then [.constraintFilter] else []
  | .update set => updateRejections inserted set

/-- What is wrong with a conflict clause: its target, its filter, its action. -/
def rejections (c : ConflictCall α) (inserted : List String) : List Rejection :=
  targetRejections c.target ++ recordedFilters c.merges ++ c.actionRejections inserted

theorem reports_action {c : ConflictCall α} (hvalid : Predicate.Call.AllValid c.merges)
    {columns : List Identifier} {names : List String} (h : columns = [] ↔ names = []) :
    Reports (c.clause.actionPhrase columns (Predicate.ofCalls c.merges).phrase)
      (c.actionRejections names) := by
  obtain ⟨target, filters, action⟩ := c
  cases action with
  | nothing =>
    refine .ite ?_ (fun _ => reports_error _ _) fun _ => reports_ok _
    rw [Bool.and_eq_true, Bool.not_eq_true', ← Predicate.isEmpty_ofCalls hvalid]
    rfl
  | update set => exact (reports_updateSet h set).map _

/-- The conflict clause, for an INSERT into columns with these names. -/
theorem reports_clause (c : ConflictCall α) {columns : List Identifier} {names : List String}
    (h : columns = [] ↔ names = []) :
    Reports (c.clause.phrase columns) (c.rejections names) := by
  rw [rejections, List.append_assoc]
  refine (reports_target c.target).bind fun _ _ => ?_
  refine (Predicate.reports_compile c.merges).bind fun filter hfilter => ?_
  obtain ⟨hfault, rfl⟩ := (Predicate.compile_eq_ok_iff _ _).1 hfilter
  exact (reports_action ((Predicate.fault_ofCalls _).1 hfault) h).bind_pure _

end ConflictCall

/-! ## The statement -/

/-- All that is wrong with an INSERT. -/
def rejections (table : String) (calls : List (Call α)) : List Rejection :=
  let added := calls.flatMap Call.added
  recordedNames (calls.flatMap Call.faults) ++ nameRejections [table] ++
    columnRejections [] (firstKeys added) ++ rowRejections added ++
    (lastConflict calls).toList.flatMap (·.rejections (firstKeys added))

theorem reports_phrase (table : String) (calls : List (Call α)) :
    Reports (ofCalls table calls).phrase (rejections table calls) := by
  rw [rejections, List.append_assoc, List.append_assoc, List.append_assoc, phrase, fault_eq,
    table_ofCalls, ← rows_ofCalls table calls]
  refine (reports_recordedNames _).bind fun _ _ => (reports_expect table).bind fun _ _ => ?_
  refine (reports_targetColumns _).bind fun columns hcolumns => ?_
  refine (reports_valuesClause hcolumns).bind fun _ _ => Reports.bind_pure ?_ _
  have hempty := targetColumns_isEmpty hcolumns
  rw [conflictClause, conflict_ofCalls]
  cases lastConflict calls with
  | none => exact reports_ok _
  | some c =>
    rw [Option.toList_some, List.flatMap_singleton]
    exact c.reports_clause (by rw [← List.isEmpty_iff, hempty, List.isEmpty_iff])

/-- An INSERT compiles if nothing is wrong with it, and is rejected for the first thing else. -/
theorem reports_compile (table : String) (calls : List (Call α)) :
    Reports (Statement.insert (ofCalls table calls)).compile (rejections table calls) :=
  (reports_phrase table calls).map Phrase.query

end ParamSql.Insert
