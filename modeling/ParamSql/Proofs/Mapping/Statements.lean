import ParamSql.Proofs.Mapping.Clauses
import ParamSql.Proofs.Statement.Calls

/-!
# Statements with other values

A statement that is built by the same calls with other values has the same outcome: it is rejected
for the same cause, or compiles to the same text with the values replaced where they stand. So no
value has an influence on the text that is sent, whatever function replaces the values.

Results:
* `Select.map_ofCalls`, `Insert.map_ofCalls`, …: calls with replaced values build the statement with
  replaced values.
* `Select.phrase_map`, `Insert.phrase_map`, …: a statement with replaced values.
* `Recipe.compile_mapValues`: the outcome of a statement of any kind.
-/

namespace ParamSql

variable {α β : Type} (f : α → β)

/-! ## SELECT -/

namespace Select

/-- The statement with replaced values. -/
def map (s : Select α) : Select β :=
  { table := s.table, columns := s.columns, joins := s.joins, predicate := s.predicate.map f,
    order := s.order, limit := s.limit.map f, offset := s.offset.map f, locks := s.locks,
    fault := s.fault }

/-- The call with replaced values. -/
def Call.map : Call α → Call β
  | .columns names => .columns names
  | .projections entries => .projections entries
  | .join kind table on => .join kind table on
  | .order keys => .order keys
  | .limit n => .limit (f n)
  | .offset n => .offset (f n)
  | .lock mode tables policy => .lock mode tables policy
  | .filter call => .filter (call.map f)

theorem map_addFilter (s : Select α) (call : Predicate.Call α) :
    (s.addFilter call).map f = (s.map f).addFilter (call.map f) := by
  rw [addFilter, addFilter, map, Predicate.map_apply]
  rfl

theorem map_apply (s : Select α) (call : Call α) :
    (s.apply call).map f = (s.map f).apply (call.map f) := by
  cases call with
  | join kind table on =>
    simp only [apply, Call.map, addJoin]
    split <;> rfl
  | lock mode tables policy =>
    simp only [apply, Call.map, addLock_eq]
    rfl
  | filter call => exact map_addFilter f s call
  | _ => rfl

theorem map_ofCalls (table : String) (calls : List (Call α)) :
    (ofCalls table calls).map f = ofCalls table (calls.map (Call.map f)) := by
  rw [ofCalls, ofCalls, List.foldl_map]
  exact (List.foldl_hom (map f) fun s call => (map_apply f s call).symm).symm

theorem map_bound (keyword : String) (v : Option α) :
    (bound keyword v).map f = bound keyword (v.map f) := by
  cases v with
  | none => rfl
  | some v => exact Phrase.map_concat f _

theorem source_map (s : Select α) : (s.map f).source = s.source.map (.map f) := by
  have hwhere : (s.map f).predicate.whereClause = s.predicate.whereClause.map (.map f) :=
    Predicate.whereClause_map f s.predicate
  rw [source, source, hwhere]
  simp only [map, bind_map, map_bind, map_pure, Phrase.map_spaced, List.map_cons, List.map_nil,
    Phrase.map_keyword, Phrase.map_name, Join.map_clause]

theorem phrase_map (s : Select α) : (s.map f).phrase = s.phrase.map (.map f) := by
  rw [phrase, phrase, source_map]
  simp only [map, SortKey.clause_map f, bind_map, map_bind, map_pure, Phrase.map_spaced,
    List.map_cons, List.map_nil, Phrase.map_keyword, Projection.map_selection, map_bound,
    RowLock.map_clause]

end Select

namespace Count

/-- The statement with replaced values. -/
def map (c : Count α) : Count β := ⟨c.select.map f⟩

theorem map_ofCalls (table : String) (calls : List (Select.Call α))
    (filters : List (Predicate.Call α)) : (ofCalls table calls filters).map f =
      ofCalls table (calls.map (Select.Call.map f)) (filters.map (Predicate.Call.map f)) := by
  have hcount : (Select.ofCalls table calls).count.map f =
      (Select.ofCalls table (calls.map (Select.Call.map f))).count :=
    congrArg Count.mk (Select.map_ofCalls f table calls)
  rw [ofCalls, ofCalls, List.foldl_map, ← hcount]
  refine (List.foldl_hom (map f) fun c call => ?_).symm
  exact congrArg Count.mk (Select.map_addFilter f c.select call).symm

theorem phrase_map (c : Count α) : (c.map f).phrase = c.phrase.map (.map f) := by
  rw [phrase, phrase, map, Select.source_map]
  simp only [Select.map, bind_map, map_bind, map_pure, Phrase.map_spaced, List.map_cons,
    List.map_nil, Phrase.map_keyword]

end Count

/-! ## DELETE -/

namespace Delete

/-- The statement with replaced values. -/
def map (d : Delete α) : Delete β :=
  { table := d.table, predicate := d.predicate.map f, returning := d.returning, fault := d.fault }

/-- The call with replaced values. -/
def Call.map : Call α → Call β
  | .filter call => .filter (call.map f)
  | .returning names => .returning names

theorem map_apply (d : Delete α) (call : Call α) :
    (d.apply call).map f = (d.map f).apply (call.map f) := by
  cases call with
  | filter call =>
    rw [apply, addFilter, map, Predicate.map_apply]
    rfl
  | returning names => rfl

theorem map_ofCalls (table : String) (calls : List (Call α)) :
    (ofCalls table calls).map f = ofCalls table (calls.map (Call.map f)) := by
  rw [ofCalls, ofCalls, List.foldl_map]
  exact (List.foldl_hom (map f) fun d call => (map_apply f d call).symm).symm

theorem phrase_map (d : Delete α) : (d.map f).phrase = d.phrase.map (.map f) := by
  simp only [phrase, map, Predicate.whereClause_map, Predicate.require_map, bind_map, map_bind,
    map_pure, Phrase.map_spaced, List.map_cons, List.map_nil, Phrase.map_keyword, Phrase.map_name,
    Projection.map_returning]

end Delete

/-! ## UPDATE -/

/-- What a column is set to, with a replaced value. -/
def Assigned.map : Assigned α → Assigned β
  | .value v => .value (f v)
  | .raw sql => .raw sql

namespace Update

/-- The statement with replaced values. -/
def map (u : Update α) : Update β :=
  { table := u.table, assignments := u.assignments.map (Assigned.map f),
    predicate := u.predicate.map f, returning := u.returning, fault := u.fault }

/-- The call with replaced values. -/
def Call.map : Call α → Call β
  | .set column assigned => .set column (assigned.map f)
  | .setAll columns => .setAll (columns.map f)
  | .filter call => .filter (call.map f)
  | .returning names => .returning names

theorem map_apply (u : Update α) (call : Call α) :
    (u.apply call).map f = (u.map f).apply (call.map f) := by
  cases call with
  | set column assigned =>
    rw [apply, set, map, OrderedMap.map_set]
    rfl
  | setAll columns =>
    have hentries : (columns.map Assigned.value).entries.map (fun pair => (pair.1, pair.2.map f)) =
        ((columns.map f).map Assigned.value).entries := by
      simp only [OrderedMap.entries_map, List.map_map]
      rfl
    rw [apply, setAll, map, OrderedMap.map_setAll, hentries]
    rfl
  | filter call =>
    rw [apply, addFilter, map, Predicate.map_apply]
    rfl
  | returning names => rfl

theorem map_ofCalls (table : String) (calls : List (Call α)) :
    (ofCalls table calls).map f = ofCalls table (calls.map (Call.map f)) := by
  rw [ofCalls, ofCalls, List.foldl_map]
  exact (List.foldl_hom (map f) fun u call => (map_apply f u call).symm).symm

theorem assignment_map (entry : String × Assigned α) :
    assignment (entry.1, entry.2.map f) = (assignment entry).map (.map f) := by
  obtain ⟨column, assigned⟩ := entry
  rw [assignment, assignment]
  cases Identifier.expect column with
  | error cause => rfl
  | ok x =>
    refine congrArg Except.ok ?_
    rw [Phrase.map_concat]
    cases assigned <;> rfl

theorem setClause_map (u : Update α) : (u.map f).setClause = u.setClause.map (.map f) := by
  rw [setClause, setClause, map, OrderedMap.isEmpty_map, OrderedMap.entries_map,
    mapM_hom (assignment_map f)]
  split
  · rfl
  · cases u.assignments.entries.mapM assignment with
    | error cause => rfl
    | ok assignments =>
      refine congrArg Except.ok ?_
      rw [Phrase.map_concat, List.map_cons, List.map_singleton, Phrase.map_listed,
        Phrase.map_keyword]

theorem phrase_map (u : Update α) : (u.map f).phrase = u.phrase.map (.map f) := by
  rw [phrase, phrase, setClause_map]
  simp only [map, Predicate.whereClause_map, Predicate.require_map, bind_map, map_bind, map_pure,
    Phrase.map_spaced, List.map_cons, List.map_nil, Phrase.map_keyword, Phrase.map_name,
    Projection.map_returning]

end Update

/-! ## INSERT -/

namespace Insert

/-- The statement with replaced values. -/
def map (i : Insert α) : Insert β :=
  { table := i.table, rows := i.rows.map (OrderedMap.map f),
    conflict := i.conflict.map (Conflict.map f), returning := i.returning, fault := i.fault }

/-- The call with replaced values. -/
def Call.map : Call α → Call β
  | .rows added => .rows (added.map (OrderedMap.map f))
  | .returning names => .returning names
  | .conflict target filters action =>
    .conflict target (filters.map (List.map (Predicate.Call.map f))) (action.map f)

/-- Merged filters with replaced values. -/
theorem map_filters (filters : List (List (Predicate.Call α))) :
    ((filters.map Predicate.ofCalls).foldl Predicate.merge ∅).map f =
      ((filters.map (List.map (Predicate.Call.map f))).map Predicate.ofCalls).foldl
        Predicate.merge ∅ := by
  have hfilters : (filters.map (List.map (Predicate.Call.map f))).map Predicate.ofCalls =
      (filters.map Predicate.ofCalls).map (Predicate.map f) := by
    rw [List.map_map, List.map_map]
    exact List.map_congr_left fun calls _ => (Predicate.map_ofCalls f calls).symm
  rw [hfilters]
  generalize filters.map Predicate.ofCalls = predicates
  rw [List.foldl_map]
  show _ = List.foldl (fun p (q : Predicate α) => p.merge (q.map f)) (Predicate.map f ∅) predicates
  exact (List.foldl_hom (Predicate.map f) fun p q => (Predicate.map_merge f p q).symm).symm

theorem map_apply (i : Insert α) (call : Call α) :
    (i.apply call).map f = (i.map f).apply (call.map f) := by
  cases call with
  | rows added =>
    simp only [apply, addRows, Call.map, map, List.map_append]
  | returning names => rfl
  | conflict target filters action =>
    rw [apply, setConflict, Call.map, apply, setConflict, ← map_filters]
    rfl

theorem map_ofCalls (table : String) (calls : List (Call α)) :
    (ofCalls table calls).map f = ofCalls table (calls.map (Call.map f)) := by
  rw [ofCalls, ofCalls, List.foldl_map]
  exact (List.foldl_hom (map f) fun i call => (map_apply f i call).symm).symm

theorem targetColumns_map (i : Insert α) : (i.map f).targetColumns = i.targetColumns := by
  rw [targetColumns, targetColumns, map]
  cases i.rows with
  | nil => rfl
  | cons first more => exact congrArg (List.foldlM addColumn []) (OrderedMap.keys_map f first)

theorem sameColumns_map (first row : OrderedMap α) :
    sameColumns (first.map f) (row.map f) = sameColumns first row := by
  rw [sameColumns, sameColumns, OrderedMap.size_map, OrderedMap.size_map, OrderedMap.keys_map,
    OrderedMap.contains_map]

theorem tuple_map (first row : OrderedMap α) :
    tuple (first.map f) (row.map f) = (tuple first row).map f := by
  have hvalues : (first.map f).keys.filterMap (row.map f).get? =
      (first.keys.filterMap row.get?).map f := by
    rw [OrderedMap.keys_map, List.map_filterMap]
    exact List.filterMap_congr fun key _ => OrderedMap.get?_map f row key
  rw [tuple, tuple, hvalues, Phrase.map_parens, Phrase.map_listed, Phrase.map_values]

theorem tupleAt_map (first : OrderedMap α) (numbered : OrderedMap α × Nat) :
    tupleAt (first.map f) (numbered.1.map f, numbered.2) =
      (tupleAt first numbered).map (.map f) := by
  rw [tupleAt, tupleAt, sameColumns_map, tuple_map]
  split <;> rfl

theorem valuesClause_map (i : Insert α) (columns : List Identifier) :
    (i.map f).valuesClause columns = (i.valuesClause columns).map (.map f) := by
  obtain ⟨table, rows, conflict, returning, fault⟩ := i
  cases rows with
  | nil => rfl
  | cons first more =>
    have htuples := mapM_hom (tupleAt_map f first) ((first :: more).zipIdx 1)
    have hnumbered : ((first :: more).map (OrderedMap.map f)).zipIdx 1 =
        ((first :: more).zipIdx 1).map fun numbered => (numbered.1.map f, numbered.2) :=
      List.zipIdx_map ..
    rw [← hnumbered] at htuples
    simp only [valuesClause, map, List.map_cons, List.isEmpty_map] at htuples ⊢
    rw [htuples]
    split
    · split <;> rfl
    · cases ((first :: more).zipIdx 1).mapM (tupleAt first) with
      | error cause => rfl
      | ok tuples =>
        refine congrArg Except.ok ?_
        simp only [Phrase.map_spaced, List.map_cons, List.map_nil, Phrase.map_parens,
          Phrase.map_listed, Phrase.map_names, Phrase.map_keyword]

theorem conflictClause_map (i : Insert α) (columns : List Identifier) :
    (i.map f).conflictClause columns = (i.conflictClause columns).map (.map f) := by
  obtain ⟨table, rows, conflict, returning, fault⟩ := i
  cases conflict with
  | none => rfl
  | some conflict => exact conflict.phrase_map f columns

theorem phrase_map (i : Insert α) : (i.map f).phrase = i.phrase.map (.map f) := by
  rw [phrase, phrase, targetColumns_map]
  simp only [valuesClause_map, conflictClause_map, bind_map, map_bind, map_pure,
    Phrase.map_spaced, List.map_cons, List.map_nil, Phrase.map_keyword, Phrase.map_name,
    Projection.map_returning]
  rfl

end Insert

/-! ## Statements -/

namespace Statement

/-- The statement with replaced values. -/
def map : Statement α → Statement β
  | .select s => .select (s.map f)
  | .count c => .count (c.map f)
  | .insert i => .insert (i.map f)
  | .update u => .update (u.map f)
  | .delete d => .delete (d.map f)

theorem phrase_map (s : Statement α) : (s.map f).phrase = s.phrase.map (.map f) := by
  cases s with
  | select s => exact s.phrase_map f
  | count c => exact c.phrase_map f
  | insert i => exact i.phrase_map f
  | update u => exact u.phrase_map f
  | delete d => exact d.phrase_map f

end Statement

namespace Recipe

/-- The same calls with replaced values. -/
def map : Recipe α → Recipe β
  | .select table calls => .select table (calls.map (Select.Call.map f))
  | .count table calls filters =>
    .count table (calls.map (Select.Call.map f)) (filters.map (Predicate.Call.map f))
  | .insert table calls => .insert table (calls.map (Insert.Call.map f))
  | .update table calls => .update table (calls.map (Update.Call.map f))
  | .delete table calls => .delete table (calls.map (Delete.Call.map f))

theorem map_statement (r : Recipe α) : r.statement.map f = (r.map f).statement := by
  cases r with
  | select table calls => exact congrArg Statement.select (Select.map_ofCalls f table calls)
  | count table calls filters =>
    exact congrArg Statement.count (Count.map_ofCalls f table calls filters)
  | insert table calls => exact congrArg Statement.insert (Insert.map_ofCalls f table calls)
  | update table calls => exact congrArg Statement.update (Update.map_ofCalls f table calls)
  | delete table calls => exact congrArg Statement.delete (Delete.map_ofCalls f table calls)

/-- With replaced values a statement is rejected for the same cause, or compiles to the same text
with the values replaced where they stand. -/
theorem compile_mapValues (r : Recipe α) :
    (r.map f).statement.compile = r.statement.compile.map (Query.map f) := by
  rw [← map_statement, Statement.compile, Statement.compile, Statement.phrase_map]
  cases r.statement.phrase with
  | error cause => rfl
  | ok phrase => exact congrArg Except.ok (phrase.query_map f)

end Recipe

end ParamSql
