import ParamSql.Proofs.Statement.Fields
import ParamSql.Proofs.Values.Clauses

/-!
# The values of statements

A statement binds what its calls were given: what stands before the WHERE clause, the values of the
predicate, and what stands behind it. Within the statement the predicate has the text that it has on
its own, with the numbers of its placeholders raised by how many values are bound before it.

Results:
* `Select.hosts_where`, `Insert.hosts_where`, …: where the conditions of a statement stand.
* `Recipe.hosts_where`: the same for a statement of any kind.
* `Recipe.compile_linedUp`: the values of a statement that compiles, and its text around them.
-/

namespace ParamSql

variable {α : Type}

open Mark (numbering)
open Predicate.Call (allGiven)

/-- What has to compile for a clause with conditions. -/
theorem Predicate.whereClause_eq_ok_iff {p : Predicate α} {clause : Phrase α} :
    p.whereClause = .ok clause ↔
      ∃ own, p.compile = .ok own ∧ .ledBy "WHERE " own = clause := map_eq_ok_iff

/-! ## SELECT -/

namespace Select

theorem values_boundTo (keyword : String) (v : Option α) :
    (bound keyword v).values = v.toList := by
  cases v with
  | none => rfl
  | some v =>
    rw [bound, Phrase.values_concat, List.flatMap_cons, Phrase.values_keyword]
    rfl

theorem hosts_source {s : Select α} {p : Phrase α} (h : s.source = .ok p) :
    ∃ own, s.predicate.compile = .ok own ∧ p.Hosts (.ledBy "WHERE " own) [] [] := by
  obtain ⟨table, -, h⟩ := bind_eq_ok_iff.1 h
  obtain ⟨condition, hcondition, h⟩ := bind_eq_ok_iff.1 h
  obtain ⟨own, hown, rfl⟩ := Predicate.whereClause_eq_ok_iff.1 hcondition
  cases h
  exact ⟨own, hown, .spaced [.keyword "FROM", .name table, Join.clause s.joins] _ []
    (by simp [Phrase.values_keyword]) rfl⟩

theorem hosts_where {s : Select α} {p : Phrase α} (h : s.phrase = .ok p) :
    ∃ own, s.predicate.compile = .ok own ∧
      p.Hosts (.ledBy "WHERE " own) [] (s.limit.toList ++ s.offset.toList) := by
  obtain ⟨-, -, h⟩ := bind_eq_ok_iff.1 h
  obtain ⟨source, hsource, h⟩ := bind_eq_ok_iff.1 h
  obtain ⟨order, horder, h⟩ := bind_eq_ok_iff.1 h
  cases h
  obtain ⟨own, hown, hosts⟩ := hosts_source hsource
  have hstatement : (Phrase.spaced [.keyword "SELECT", Projection.selection s.columns, source,
      order, bound "LIMIT " s.limit, bound "OFFSET " s.offset, RowLock.clause s.locks]).Hosts source
      [] (s.limit.toList ++ s.offset.toList) :=
    .spaced [_, _] source [_, _, _, _] (by simp [Phrase.values_keyword])
      (by simp [SortKey.values_clause horder, values_boundTo])
  exact ⟨own, hown, hstatement.trans hosts⟩

end Select

namespace Count

theorem hosts_where {c : Count α} {p : Phrase α} (h : c.phrase = .ok p) :
    ∃ own, c.select.predicate.compile = .ok own ∧ p.Hosts (.ledBy "WHERE " own) [] [] := by
  obtain ⟨-, -, h⟩ := bind_eq_ok_iff.1 h
  obtain ⟨source, hsource, h⟩ := bind_eq_ok_iff.1 h
  cases h
  obtain ⟨own, hown, hosts⟩ := Select.hosts_source hsource
  have hstatement : (Phrase.spaced [.keyword "SELECT COUNT(*)", source]).Hosts source [] [] :=
    .spaced [_] source [] (by simp [Phrase.values_keyword]) rfl
  exact ⟨own, hown, hstatement.trans hosts⟩

end Count

/-! ## DELETE and UPDATE -/

namespace Delete

theorem hosts_where {d : Delete α} {p : Phrase α} (h : d.phrase = .ok p) :
    ∃ own, d.predicate.compile = .ok own ∧ p.Hosts (.ledBy "WHERE " own) [] [] := by
  obtain ⟨-, -, h⟩ := bind_eq_ok_iff.1 h
  obtain ⟨table, -, h⟩ := bind_eq_ok_iff.1 h
  obtain ⟨condition, hcondition, h⟩ := bind_eq_ok_iff.1 h
  obtain ⟨-, -, h⟩ := bind_eq_ok_iff.1 h
  obtain ⟨own, hown, rfl⟩ := Predicate.whereClause_eq_ok_iff.1 hcondition
  cases h
  exact ⟨own, hown, .spaced [.keyword "DELETE FROM", .name table] _
    [Projection.returning d.returning] (by simp [Phrase.values_keyword]) (by simp)⟩

end Delete

/-- The value that a column is set to, unless it is an expression in the caller's words. -/
def Assigned.value? : Assigned α → Option α
  | .value v => some v
  | .raw _ => none

namespace Update

/-- The values that the columns are set to, in the order of the SET list. -/
def setValues (assignments : OrderedMap (Assigned α)) : List α :=
  assignments.values.filterMap Assigned.value?

theorem values_assignment {entry : String × Assigned α} {p : Phrase α}
    (h : assignment entry = .ok p) : p.values = (Assigned.value? entry.2).toList := by
  obtain ⟨column, assigned⟩ := entry
  obtain ⟨x, -, rfl⟩ := map_eq_ok_iff.1 h
  rw [Phrase.values_concat]
  cases assigned with
  | value v => simp [Phrase.values_keyword, assignedPhrase, Assigned.value?]
  | raw sql => simp [Phrase.values_keyword, assignedPhrase, Assigned.value?, Phrase.values_raw]

theorem values_assignments {entries : List (String × Assigned α)} {assignments : List (Phrase α)}
    (h : entries.mapM assignment = .ok assignments) :
    assignments.flatMap Phrase.values = (entries.map Prod.snd).filterMap Assigned.value? := by
  have hvalues := map_of_mapM (fun _ _ hentry => values_assignment hentry) h
  rw [List.flatMap_def, hvalues, ← List.flatMap_def, List.filterMap_map,
    List.filterMap_eq_flatMap_toList]
  rfl

theorem values_setClause {u : Update α} {p : Phrase α} (h : u.setClause = .ok p) :
    p.values = setValues u.assignments := by
  unfold setClause at h
  split at h
  · cases h
  · obtain ⟨assignments, hassignments, rfl⟩ := map_eq_ok_iff.1 h
    rw [Phrase.values_concat]
    simp only [List.flatMap_cons, List.flatMap_nil, Phrase.values_keyword, Phrase.values_listed,
      List.nil_append, List.append_nil]
    exact values_assignments hassignments

/-- An UPDATE is written with its SET list, its conditions and its RETURNING clause. -/
theorem phrase_cases {u : Update α} {p : Phrase α} (h : u.phrase = .ok p) :
    ∃ table assignments own, Identifier.parse u.table = .ok table ∧
      u.setClause = .ok assignments ∧ u.predicate.compile = .ok own ∧
      p = .spaced [.keyword "UPDATE", .name table, assignments, .ledBy "WHERE " own,
        Projection.returning u.returning] := by
  obtain ⟨-, -, h⟩ := bind_eq_ok_iff.1 h
  obtain ⟨table, htable, h⟩ := bind_eq_ok_iff.1 h
  obtain ⟨assignments, hassignments, h⟩ := bind_eq_ok_iff.1 h
  obtain ⟨condition, hcondition, h⟩ := bind_eq_ok_iff.1 h
  obtain ⟨-, -, h⟩ := bind_eq_ok_iff.1 h
  obtain ⟨own, hown, rfl⟩ := Predicate.whereClause_eq_ok_iff.1 hcondition
  cases h
  exact ⟨table, assignments, own, mapError_eq_ok_iff.1 htable, hassignments, hown, rfl⟩

theorem hosts_where {u : Update α} {p : Phrase α} (h : u.phrase = .ok p) :
    ∃ own, u.predicate.compile = .ok own ∧
      p.Hosts (.ledBy "WHERE " own) (setValues u.assignments) [] := by
  obtain ⟨table, assignments, own, -, hassignments, hown, rfl⟩ := phrase_cases h
  exact ⟨own, hown, .spaced [.keyword "UPDATE", .name table, assignments] _
    [Projection.returning u.returning]
    (by simp [Phrase.values_keyword, values_setClause hassignments]) (by simp)⟩

end Update

/-! ## INSERT -/

namespace Insert

/-- The values of the conflict clause before its filter. -/
def conflictValues (conflict : Option (ConflictCall α)) : List α :=
  conflict.elim [] fun c => c.action.given

/-- The filter of the conflict clause; nothing without one. -/
def conflictFilters (conflict : Option (ConflictCall α)) : List (Predicate.Call α) :=
  conflict.elim [] ConflictCall.merges

/-- The conflict clause of an INSERT, or the place of one. -/
theorem hosts_conflict {i : Insert α} {conflict : Option (ConflictCall α)}
    (hi : i.conflict = conflict.map ConflictCall.clause) {columns : List Identifier} {p : Phrase α}
    (h : i.conflictClause columns = .ok p) :
    ∃ own, (Predicate.ofCalls (conflictFilters conflict)).compile = .ok own ∧
      p.Hosts (.ledBy "WHERE " own) (conflictValues conflict) [] := by
  unfold conflictClause at h
  rw [hi] at h
  cases conflict with
  | none =>
    cases h
    exact ⟨.empty, rfl, .refl .empty⟩
  | some c => exact Conflict.hosts_filter h

theorem hosts_where {i : Insert α} {conflict : Option (ConflictCall α)}
    (hi : i.conflict = conflict.map ConflictCall.clause) {p : Phrase α} (h : i.phrase = .ok p) :
    RowsFit i.rows ∧ ∃ own, (Predicate.ofCalls (conflictFilters conflict)).compile = .ok own ∧
      p.Hosts (.ledBy "WHERE " own) (allRowValues i.rows ++ conflictValues conflict) [] := by
  obtain ⟨-, -, h⟩ := bind_eq_ok_iff.1 h
  obtain ⟨table, -, h⟩ := bind_eq_ok_iff.1 h
  obtain ⟨columns, hcolumns, h⟩ := bind_eq_ok_iff.1 h
  obtain ⟨values, hvalues, h⟩ := bind_eq_ok_iff.1 h
  obtain ⟨clause, hclause, h⟩ := bind_eq_ok_iff.1 h
  cases h
  obtain ⟨hrows, hfit⟩ := values_rows hcolumns hvalues
  obtain ⟨own, hown, hosts⟩ := hosts_conflict hi hclause
  have hstatement : (Phrase.spaced [.keyword "INSERT INTO", .name table, values, clause,
      Projection.returning i.returning]).Hosts clause (allRowValues i.rows) [] :=
    .spaced [_, _, _] clause [_] (by simp [Phrase.values_keyword, hrows]) (by simp)
  exact ⟨hfit, own, hown, hstatement.trans hosts⟩

end Insert

/-! ## Statements -/

/-- A query is written as these marks: they are its text, and its placeholders are numbered from
left to right, one for each value. -/
structure Query.SpelledBy (q : Query α) (marks : List Mark) : Prop where
  text : q.sql = String.ofList (marks.flatMap Mark.chars)
  numbering : numbering marks = List.range' 1 q.values.length

theorem Phrase.spelledBy (p : Phrase α) : p.query.SpelledBy (p.marks 0) := by
  refine ⟨p.sql_marks, ?_⟩
  rw [p.numbering_marks, query_eq]

/-- The WHERE clause of these conditions behind `m` bound values: nothing if they have no text, and
else their own text with every number raised by `m`. -/
def Phrase.whereMarks (m : Nat) (own : Phrase α) : List Mark :=
  if own.isEmpty then [] else .text "WHERE ".toList :: (own.marks 0).map (Mark.raise m)

theorem Phrase.marks_where (m : Nat) (own : Phrase α) :
    ((ledBy "WHERE " own).marks 0).map (Mark.raise m) = own.whereMarks m := by
  rw [marks, spell, pieces_ledBy, whereMarks]
  split
  · rfl
  · rfl

namespace Recipe

/-- The calls that build the conditions of a statement. -/
def filters : Recipe α → List (Predicate.Call α)
  | .select _ calls => calls.filterMap Select.Call.filter?
  | .count _ calls filters => calls.filterMap Select.Call.filter? ++ filters
  | .insert _ calls => Insert.conflictFilters (Insert.lastConflict calls)
  | .update _ calls => calls.filterMap Update.Call.filter?
  | .delete _ calls => calls.filterMap Delete.Call.filter?

/-- The rows that an INSERT is given. -/
def rows : Recipe α → List (OrderedMap α)
  | .insert _ calls => calls.flatMap Insert.Call.added
  | _ => []

/-- The values that are bound before the conditions: the columns that an UPDATE sets, and the rows
of an INSERT with what it updates instead. -/
def before : Recipe α → List α
  | .update _ calls => Update.setValues (.ofList (calls.flatMap Update.Call.sets))
  | .insert _ calls => Insert.allRowValues (calls.flatMap Insert.Call.added) ++
      Insert.conflictValues (Insert.lastConflict calls)
  | _ => []

/-- The values that are bound behind the conditions: the last limit and the last offset. -/
def after : Recipe α → List α
  | .select _ calls => (calls.filterMap Select.Call.limit?).getLast?.toList ++
      (calls.filterMap Select.Call.offset?).getLast?.toList
  | _ => []

/-- The conditions stand in the statement between the values before and behind them. -/
theorem hosts_where (r : Recipe α) {p : Phrase α} (h : r.statement.phrase = .ok p) :
    Insert.RowsFit r.rows ∧ ∃ own, (Predicate.ofCalls r.filters).compile = .ok own ∧
      p.Hosts (.ledBy "WHERE " own) r.before r.after := by
  cases r with
  | select table calls =>
    have hosts := Select.hosts_where h
    rw [Select.predicate_ofCalls, Select.limit_ofCalls, Select.offset_ofCalls] at hosts
    exact ⟨trivial, hosts⟩
  | count table calls filters =>
    have hosts := Count.hosts_where h
    rw [Count.select_ofCalls] at hosts
    exact ⟨trivial, hosts⟩
  | insert table calls =>
    have hosts := Insert.hosts_where (Insert.conflict_ofCalls table calls) h
    rw [Insert.rows_ofCalls] at hosts
    exact hosts
  | update table calls =>
    have hosts := Update.hosts_where h
    rw [Update.predicate_ofCalls, Update.assignments_eq] at hosts
    exact ⟨trivial, hosts⟩
  | delete table calls =>
    have hosts := Delete.hosts_where h
    rw [Delete.predicate_ofCalls] at hosts
    exact ⟨trivial, hosts⟩

/-- What a statement binds, and how it is written around its conditions, whose phrase of their own
is `own`. -/
structure LinedUp (r : Recipe α) (statement own : Phrase α) : Prop where
  values : statement.query.values = r.before ++ own.query.values ++ r.after
  given : own.query.values = allGiven r.filters
  rows : Insert.RowsFit r.rows
  spelled : statement.query.SpelledBy (statement.marks 0)
  own_spelled : own.query.SpelledBy (own.marks 0)
  hosted : ∃ head tail,
    statement.marks 0 = head ++ own.whereMarks r.before.length ++ tail ∧
      numbering head = List.range' 1 r.before.length ∧
      numbering tail = List.range' (r.before.length + own.query.values.length + 1) r.after.length
  merged : ∀ calls, r.filters = [.merge calls] → (Predicate.ofCalls calls).compile = .ok own

/-- A statement that compiles binds the values that it is given, in the order of its clauses, and
its conditions have their own text with all numbers raised by how many values are bound before. -/
theorem compile_linedUp (r : Recipe α) {query : Query α} (h : r.statement.compile = .ok query) :
    ∃ statement own, r.statement.phrase = .ok statement ∧ statement.query = query ∧
      (Predicate.ofCalls r.filters).compile = .ok own ∧ r.LinedUp statement own := by
  obtain ⟨statement, hstatement, rfl⟩ := (Statement.compile_eq_ok_iff _ _).1 h
  obtain ⟨hrows, own, hown, hosts⟩ := r.hosts_where hstatement
  refine ⟨statement, own, hstatement, rfl, hown, ?_⟩
  obtain ⟨head, tail, hmarks, hhead, htail⟩ := hosts.marks_eq
  rw [Phrase.marks_where] at hmarks
  rw [Phrase.values_ledBy] at htail
  have hvalues := hosts.values_eq
  rw [Phrase.values_ledBy] at hvalues
  refine ⟨?_, ?_, hrows, statement.spelledBy, own.spelledBy, ⟨head, tail, hmarks, hhead, ?_⟩, ?_⟩
  · rw [Phrase.query_eq, Phrase.query_eq]
    exact hvalues
  · rw [Phrase.query_eq]
    exact Predicate.values_ofCalls hown
  · rw [Phrase.query_eq]
    exact htail
  · intro calls hcalls
    rw [← Predicate.compile_merged, ← hcalls]
    exact hown

/-- The condition of a conflict clause. -/
def rated : List (Predicate.Call Nat) := [.equal .and (.text "rating") 6]

/-- An INSERT of two rows that set the same columns in another order. -/
def upsert : Recipe Nat :=
  .insert "film" [
    .rows [.ofList [("id", 1), ("title", 2)], .ofList [("title", 4), ("id", 3)]],
    .conflict (.columns ["id"]) [rated] (.update (.values (.ofList [("title", 5)])))]

/-- What it compiles to. -/
def upsertQuery : Query Nat where
  sql := "INSERT INTO film (id, title) VALUES ($1, $2), ($3, $4) " ++
    "ON CONFLICT (id) DO UPDATE SET (title) = ROW($5) WHERE rating = $6"
  values := [1, 2, 3, 4, 5, 6]

theorem upsert_linedUp :
    upsert.statement.compile = .ok upsertQuery ∧
      ∃ statement own, statement.query = upsertQuery ∧
        (Predicate.ofCalls rated).compile = .ok own ∧ upsert.LinedUp statement own := by
  have hc : upsert.statement.compile = .ok upsertQuery := by decide +kernel
  obtain ⟨statement, own, -, hquery, -, hlined⟩ := compile_linedUp upsert hc
  exact ⟨hc, statement, own, hquery, hlined.merged rated rfl, hlined⟩

end Recipe

end ParamSql
