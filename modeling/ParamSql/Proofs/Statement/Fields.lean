import ParamSql.Proofs.Statement.Calls

/-!
# What calls leave in a statement

Every call touches a few fields of a statement, and what stands in a field is found from the calls
that touch it, whatever other calls come between them: lists grow at the end, of the clauses that
can stand once the last one counts, and the predicate is built by the filters.

Results:
* `foldl_append_field`, `foldl_last_field`, `foldl_first_field`: a field that grows, one that is
  replaced, and one that is kept.
* `Select.apply_after`: what one call on a SELECT does to every field.
* `predicate_ofCalls`, `table_ofCalls`: the predicate and the table of a statement of any kind.
* `Update.assignments_eq`, `Insert.conflict_ofCalls`: the SET list and the conflict clause.
-/

namespace ParamSql

variable {α : Type}

section

variable {σ κ β : Type} {step : σ → κ → σ}

/-- A field that every call adds to. -/
theorem foldl_append_field (field : σ → List β) {adds : κ → List β}
    (h : ∀ s call, field (step s call) = field s ++ adds call) (calls : List κ) (s : σ) :
    field (calls.foldl step s) = field s ++ calls.flatMap adds := by
  induction calls generalizing s with
  | nil => simp
  | cons call rest ih => rw [List.foldl_cons, ih, h, List.flatMap_cons, List.append_assoc]

/-- A field that some calls replace has what the last of them brings. -/
theorem foldl_last_field (field : σ → Option β) {sets : κ → Option β}
    (h : ∀ s call, field (step s call) = (sets call).or (field s)) (calls : List κ) (s : σ) :
    field (calls.foldl step s) = (calls.filterMap sets).getLast?.or (field s) := by
  induction calls generalizing s with
  | nil => simp
  | cons call rest ih =>
    rw [List.foldl_cons, ih, h, List.filterMap_cons]
    cases sets call with
    | none => rfl
    | some b => simp [List.getLast?_cons]

/-- A field that keeps the first of what all calls bring. -/
theorem foldl_first_field (field : σ → Option β) {faults : κ → List β}
    (h : ∀ s call, field (step s call) = (field s).or (faults call).head?) (calls : List κ)
    (s : σ) : field (calls.foldl step s) = (field s).or (calls.flatMap faults).head? := by
  induction calls generalizing s with
  | nil => exact Option.or_none.symm
  | cons call rest ih =>
    rw [List.foldl_cons, ih, h, List.flatMap_cons, List.head?_append, Option.or_assoc]

/-- Calls that bring nothing can be left out. -/
theorem flatMap_filter_of_nil {p : κ → Bool} {adds : κ → List β}
    (h : ∀ call, p call = false → adds call = []) (calls : List κ) :
    (calls.filter p).flatMap adds = calls.flatMap adds := by
  induction calls with
  | nil => rfl
  | cons call rest ih =>
    cases hcall : p call with
    | true => rw [List.filter_cons_of_pos hcall, List.flatMap_cons, ih, List.flatMap_cons]
    | false =>
      rw [List.filter_cons_of_neg (by simp [hcall]), ih, List.flatMap_cons, h call hcall]
      rfl

/-- A predicate that some calls filter. -/
theorem foldl_filter_field (field : σ → Predicate α) {filter? : κ → Option (Predicate.Call α)}
    (h : ∀ s call, field (step s call) = (filter? call).elim (field s) (field s).apply)
    (calls : List κ) (s : σ) :
    field (calls.foldl step s) = (field s).applyAll (calls.filterMap filter?) := by
  induction calls generalizing s with
  | nil => rfl
  | cons call rest ih =>
    rw [List.foldl_cons, ih, h, List.filterMap_cons]
    cases filter? call <;> rfl

end

/-! ## SELECT -/

namespace Select

/-- The condition that a call brings. -/
def Call.filter? : Call α → Option (Predicate.Call α)
  | .filter call => some call
  | _ => none

/-- The sort keys that a call brings. -/
def Call.keys : Call α → List SortKey
  | .order keys => keys
  | _ => []

/-- The number of rows that a call sets. -/
def Call.limit? : Call α → Option α
  | .limit n => some n
  | _ => none

/-- The number of rows to pass over that a call sets. -/
def Call.offset? : Call α → Option α
  | .offset n => some n
  | _ => none

/-- The entries of the column list that a call brings. -/
def Call.entries : Call α → List Projection
  | .columns names => (Projection.parseAll names).1
  | .projections entries => entries
  | _ => []

/-- The join that a call brings, unless it has a bad name. -/
def Call.joins : Call α → List Join
  | .join kind table on => (Join.parse kind table on).toOption.toList
  | _ => []

/-- The lock that a call brings. -/
def Call.locks : Call α → List RowLock
  | .lock mode tables policy => [⟨mode, (RowLock.parseTables tables).1, policy⟩]
  | _ => []

/-- What a call leaves in a statement, but for the fault: a call adds to lists at their end, and sets
what has one value. -/
structure After (s : Select α) (call : Call α) (after : Select α) : Prop where
  table : after.table = s.table
  columns : after.columns = s.columns ++ call.entries
  joins : after.joins = s.joins ++ call.joins
  predicate : after.predicate = call.filter?.elim s.predicate s.predicate.apply
  order : after.order = s.order ++ call.keys
  limit : after.limit = call.limit?.or s.limit
  offset : after.offset = call.offset?.or s.offset
  locks : after.locks = s.locks ++ call.locks

theorem apply_after (s : Select α) (call : Call α) : After s call (s.apply call) := by
  have same {β : Type} (l : List β) : l = l ++ [] := (List.append_nil l).symm
  cases call with
  | columns names => exact ⟨rfl, rfl, same _, rfl, same _, rfl, rfl, same _⟩
  | projections entries => exact ⟨rfl, rfl, same _, rfl, same _, rfl, rfl, same _⟩
  | join kind table on =>
    rw [apply, addJoin]
    cases h : Join.parse kind table on with
    | ok join => exact ⟨rfl, same _, by rw [Call.joins, h]; rfl, rfl, same _, rfl, rfl, same _⟩
    | error fault =>
      exact ⟨rfl, same _, by rw [Call.joins, h]; exact same _, rfl, same _, rfl, rfl, same _⟩
  | order keys => exact ⟨rfl, same _, same _, rfl, rfl, rfl, rfl, same _⟩
  | limit n => exact ⟨rfl, same _, same _, rfl, same _, rfl, rfl, same _⟩
  | offset n => exact ⟨rfl, same _, same _, rfl, same _, rfl, rfl, same _⟩
  | lock mode tables policy =>
    rw [apply, addLock_eq]
    exact ⟨rfl, same _, same _, rfl, same _, rfl, rfl, rfl⟩
  | filter call => exact ⟨rfl, same _, same _, rfl, same _, rfl, rfl, same _⟩

theorem table_ofCalls (table : String) (calls : List (Call α)) :
    (ofCalls table calls).table = table :=
  List.foldlRecOn (motive := fun s => s.table = table) calls apply (b := ofTable table) rfl
    fun s hs call _ => (apply_after s call).table.trans hs

theorem columns_ofCalls (table : String) (calls : List (Call α)) :
    (ofCalls table calls).columns = calls.flatMap Call.entries :=
  foldl_append_field columns (fun s call => (apply_after s call).columns) calls (ofTable table)

theorem joins_ofCalls (table : String) (calls : List (Call α)) :
    (ofCalls table calls).joins = calls.flatMap Call.joins :=
  foldl_append_field joins (fun s call => (apply_after s call).joins) calls (ofTable table)

theorem predicate_ofCalls (table : String) (calls : List (Call α)) :
    (ofCalls table calls).predicate = Predicate.ofCalls (calls.filterMap Call.filter?) :=
  foldl_filter_field predicate (fun s call => (apply_after s call).predicate) calls (ofTable table)

theorem order_ofCalls (table : String) (calls : List (Call α)) :
    (ofCalls table calls).order = calls.flatMap Call.keys :=
  foldl_append_field order (fun s call => (apply_after s call).order) calls (ofTable table)

theorem limit_ofCalls (table : String) (calls : List (Call α)) :
    (ofCalls table calls).limit = (calls.filterMap Call.limit?).getLast? :=
  (foldl_last_field limit (fun s call => (apply_after s call).limit) calls (ofTable table)).trans
    Option.or_none

theorem offset_ofCalls (table : String) (calls : List (Call α)) :
    (ofCalls table calls).offset = (calls.filterMap Call.offset?).getLast? :=
  (foldl_last_field offset (fun s call => (apply_after s call).offset) calls (ofTable table)).trans
    Option.or_none

theorem locks_ofCalls (table : String) (calls : List (Call α)) :
    (ofCalls table calls).locks = calls.flatMap Call.locks :=
  foldl_append_field locks (fun s call => (apply_after s call).locks) calls (ofTable table)

end Select

/-- Further filters of a count touch the predicate alone. -/
theorem Count.select_ofCalls (table : String) (calls : List (Select.Call α))
    (filters : List (Predicate.Call α)) :
    (Count.ofCalls table calls filters).select = { Select.ofCalls table calls with
      predicate := Predicate.ofCalls (calls.filterMap Select.Call.filter? ++ filters) } := by
  have hfold (c : Count α) : (filters.foldl addFilter c).select =
      { c.select with predicate := c.select.predicate.applyAll filters } := by
    induction filters generalizing c with
    | nil => rfl
    | cons call rest ih => exact ih (c.addFilter call)
  rw [Count.ofCalls, hfold, Predicate.ofCalls, Predicate.applyAll_append]
  simp only [Select.count, Select.predicate_ofCalls]
  rfl

/-! ## DELETE -/

namespace Delete

/-- The condition that a call brings. -/
def Call.filter? : Call α → Option (Predicate.Call α)
  | .filter call => some call
  | .returning _ => none

theorem predicate_ofCalls (table : String) (calls : List (Call α)) :
    (ofCalls table calls).predicate = Predicate.ofCalls (calls.filterMap Call.filter?) := by
  refine foldl_filter_field predicate (fun d call => ?_) calls (ofTable table)
  cases call <;> rfl

theorem table_ofCalls (table : String) (calls : List (Call α)) :
    (ofCalls table calls).table = table := by
  refine List.foldlRecOn (motive := fun d => d.table = table) calls apply (b := ofTable table) rfl
    fun d hd call _ => ?_
  cases call <;> exact hd

end Delete

/-! ## UPDATE -/

namespace Update

/-- The condition that a call brings. -/
def Call.filter? : Call α → Option (Predicate.Call α)
  | .filter call => some call
  | _ => none

/-- The columns that a call sets, and what to. -/
def Call.sets : Call α → List (String × Assigned α)
  | .set column assigned => [(column, assigned)]
  | .setAll columns => columns.entries.map fun entry => (entry.1, .value entry.2)
  | _ => []

theorem predicate_ofCalls (table : String) (calls : List (Call α)) :
    (ofCalls table calls).predicate = Predicate.ofCalls (calls.filterMap Call.filter?) := by
  refine foldl_filter_field predicate (fun u call => ?_) calls (ofTable table)
  cases call <;> rfl

theorem table_ofCalls (table : String) (calls : List (Call α)) :
    (ofCalls table calls).table = table := by
  refine List.foldlRecOn (motive := fun u => u.table = table) calls apply (b := ofTable table) rfl
    fun u hu call _ => ?_
  cases call <;> exact hu

/-- The SET list is made by setting in turn all columns that the calls set. -/
theorem assignments_eq (table : String) (calls : List (Call α)) :
    (ofCalls table calls).assignments = .ofList (calls.flatMap Call.sets) := by
  have hfold (u : Update α) : (calls.foldl apply u).assignments =
      u.assignments.setAll (calls.flatMap Call.sets) := by
    induction calls generalizing u with
    | nil => rfl
    | cons call rest ih =>
      have hcall : (u.apply call).assignments = u.assignments.setAll call.sets := by
        cases call <;> rfl
      rw [List.foldl_cons, ih, hcall, List.flatMap_cons, OrderedMap.setAll, OrderedMap.setAll,
        OrderedMap.setAll, List.foldl_append]
  exact hfold (ofTable table)

end Update

/-! ## INSERT -/

namespace Insert

/-- The rows that a call brings. -/
def Call.added : Call α → List (OrderedMap α)
  | .rows added => added
  | _ => []

/-- What a caller gives for a conflict clause. -/
structure ConflictCall (α : Type) where
  target : ConflictTarget
  filters : List (List (Predicate.Call α))
  action : ConflictAction α

/-- The filters of a conflict clause as one list of calls: each of them is merged. -/
def ConflictCall.merges (c : ConflictCall α) : List (Predicate.Call α) := c.filters.map .merge

/-- The conflict clause. -/
def ConflictCall.clause (c : ConflictCall α) : Conflict α :=
  ⟨c.target, c.action, Predicate.ofCalls c.merges⟩

/-- The conflict clause that a call brings. -/
def Call.conflict? : Call α → Option (ConflictCall α)
  | .conflict target filters action => some ⟨target, filters, action⟩
  | _ => none

/-- The conflict clause that counts: the last one. -/
def lastConflict (calls : List (Call α)) : Option (ConflictCall α) :=
  (calls.filterMap Call.conflict?).getLast?

theorem table_ofCalls (table : String) (calls : List (Call α)) :
    (ofCalls table calls).table = table := by
  refine List.foldlRecOn (motive := fun i => i.table = table) calls apply (b := ofTable table) rfl
    fun i hi call _ => ?_
  cases call <;> exact hi

theorem rows_ofCalls (table : String) (calls : List (Call α)) :
    (ofCalls table calls).rows = calls.flatMap Call.added := by
  refine foldl_append_field rows (fun i call => ?_) calls (ofTable table)
  cases call with
  | rows rows => rfl
  | returning names => exact (List.append_nil _).symm
  | conflict target filters action => exact (List.append_nil _).symm

/-- Merging the filters of a conflict clause one after the other. -/
theorem foldl_merge (filters : List (List (Predicate.Call α))) (p : Predicate α) :
    (filters.map Predicate.ofCalls).foldl Predicate.merge p = p.applyAll (filters.map .merge) := by
  induction filters generalizing p with
  | nil => rfl
  | cons calls rest ih => exact ih _

/-- Of several conflict clauses the last one counts. -/
theorem conflict_ofCalls (table : String) (calls : List (Call α)) :
    (ofCalls table calls).conflict = (lastConflict calls).map ConflictCall.clause := by
  rw [lastConflict, ← List.getLast?_map, List.map_filterMap]
  refine (foldl_last_field conflict (fun i call => ?_) calls (ofTable table)).trans
    Option.or_none
  cases call with
  | rows rows => rfl
  | returning names => rfl
  | conflict target filters action =>
    rw [conflict_apply, foldl_merge]
    rfl

end Insert

end ParamSql
