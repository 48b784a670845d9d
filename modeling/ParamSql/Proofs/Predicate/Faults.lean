import ParamSql.Proofs.Predicate.Calls

/-!
# The fault of a predicate

`Call.faults` lists what is wrong with a call, in the order in which the caller gave it: names that
are no identifiers, and a template with another number of values than placeholders. The faults of a
group or of a merged predicate are those of its calls. A predicate keeps the first fault of all the
calls that built it, at whatever depth it stands, and is refused for it.

Results:
* `fault_apply_eq`: what one call adds to the fault that is recorded.
* `fault_applyAll_eq`: the fault that is recorded after any calls.
* `reports_compile`: a predicate is refused for its first fault.
-/

namespace ParamSql

variable {α : Type}

/-- What is wrong with the name of a column. -/
def ColumnName.faults (name : ColumnName) : List BuildFault :=
  (faultOf name.resolve).map .identifier

namespace Predicate

namespace Call

mutual

/-- What is wrong with a call, in order. -/
def faults : Call α → List BuildFault
  | .equal _ column _ => column.faults
  | .equalAll columns => columns.keys.flatMap fun key => (ColumnName.text key).faults
  | .oneOf _ column _ => column.faults
  | .noneOf column _ => column.faults
  | .raw _ _ => []
  | .template sql values =>
    if Template.placeholders sql.toList = values.length then []
    else [.templateArity sql (Template.placeholders sql.toList) values.length]
  | .all => []
  | .group _ calls => allFaults calls
  | .merge calls => allFaults calls

/-- What is wrong with calls, in order. -/
def allFaults : List (Call α) → List BuildFault
  | [] => []
  | call :: calls => faults call ++ allFaults calls

end

end Call

open Call (faults allFaults AllValid)

theorem reports_column (name : ColumnName) : Reports (column name) name.faults :=
  (reports_faultOf name.resolve).mapError BuildFault.identifier

theorem reports_pairOf (entry : String × α) :
    Reports (pairOf entry) (ColumnName.text entry.1).faults := (reports_column _).map _

/-- A condition that cannot be made leaves the first thing that is wrong with it. -/
theorem fault_addResult_eq (p : Predicate α) (junction : Junction)
    {result : Except BuildFault (Condition α)} {found : List BuildFault}
    (h : Reports result found) : (p.addResult junction result).fault = p.fault.or found.head? := by
  cases found with
  | nil =>
    obtain ⟨c, rfl⟩ := h
    exact Option.or_none.symm
  | cons fault rest =>
    obtain rfl : result = .error fault := h
    rfl

theorem fault_equalAll_eq (p : Predicate α) (columns : OrderedMap α) :
    (p.equalAll columns).fault = p.fault.or (faults (.equalAll columns)).head? := by
  have hpairs := (Reports.mapM fun entry (_ : entry ∈ columns.entries) =>
    reports_pairOf entry).map Condition.equal
  rw [equalAll, fault_addResult_eq p .and hpairs, faults, OrderedMap.keys, List.flatMap_map]

theorem fault_template_eq (p : Predicate α) (sql : String) (values : List α) :
    (p.template sql values).fault = p.fault.or (faults (.template sql values)).head? := by
  refine fault_addResult_eq p .and ?_
  rw [faults]
  cases h : Template.phrase? sql values with
  | none =>
    rw [if_neg ((Template.phrase?_eq_none_iff sql values).1 h)]
    exact reports_error _ _
  | some phrase =>
    rw [if_pos (Template.phrase?_eq_some_iff.1 h).1]
    exact reports_ok _

mutual

/-- A call leaves the fault that is recorded, or else the first thing that is wrong with it. -/
theorem fault_apply_eq : ∀ (p : Predicate α) (call : Call α),
    (p.apply call).fault = p.fault.or call.faults.head?
  | p, .equal junction name _ => fault_addResult_eq p junction ((reports_column name).map _)
  | p, .equalAll columns => fault_equalAll_eq p columns
  | p, .oneOf junction name _ => fault_addResult_eq p junction ((reports_column name).map _)
  | p, .noneOf name _ => fault_addResult_eq p .and ((reports_column name).map _)
  | p, .raw _ _ => Option.or_none.symm
  | p, .template sql values => fault_template_eq p sql values
  | p, .all => Option.or_none.symm
  | p, .group _ calls => by
    rw [faults, ← Option.none_or (o := (allFaults calls).head?)]
    exact congrArg p.fault.or (fault_applyAll_eq ∅ calls)
  | p, .merge calls => by
    rw [faults, ← Option.none_or (o := (allFaults calls).head?)]
    exact congrArg p.fault.or (fault_applyAll_eq ∅ calls)

/-- The fault that is recorded is the first thing that is wrong with any of the calls. -/
theorem fault_applyAll_eq : ∀ (p : Predicate α) (calls : List (Call α)),
    (p.applyAll calls).fault = p.fault.or (allFaults calls).head?
  | p, [] => Option.or_none.symm
  | p, call :: calls => by
    rw [applyAll_cons, fault_applyAll_eq (p.apply call) calls, fault_apply_eq p call, allFaults,
      List.head?_append, Option.or_assoc]

end

theorem fault_ofCalls_eq (calls : List (Call α)) :
    (ofCalls calls).fault = (allFaults calls).head? :=
  (fault_applyAll_eq ∅ calls).trans (Option.none_or ..)

/-- Nothing is wrong with calls exactly if all of them can be used. -/
theorem allFaults_eq_nil_iff (calls : List (Call α)) : allFaults calls = [] ↔ AllValid calls := by
  rw [← fault_ofCalls, fault_ofCalls_eq, List.head?_eq_none_iff]

theorem reports_check (faults : List BuildFault) :
    Reports (BuildFault.check faults.head?) (faults.map .recorded) := by
  cases faults with
  | nil => exact reports_ok _
  | cons fault faults => exact reports_error _ _

/-- A predicate is refused for its first fault. -/
theorem reports_compile (calls : List (Call α)) :
    Reports (ofCalls calls).compile ((allFaults calls).map .recorded) := by
  rw [compile, fault_ofCalls_eq]
  exact (reports_check _).map _

end Predicate

end ParamSql
