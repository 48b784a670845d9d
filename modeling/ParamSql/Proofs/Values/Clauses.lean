import ParamSql.Proofs.Mapping.Clauses
import ParamSql.Proofs.Statement.Rows
import ParamSql.Proofs.Values.Marks
import ParamSql.Proofs.Values.Predicate

/-!
# The values of clauses

Clauses that are made of names alone bind nothing. A conflict clause binds the values of its action,
and then hosts its filter; the rows of an INSERT bind what they set, row by row.

Results:
* `Phrase.values_closed`: a phrase that can be formed whatever the values are binds none.
* `Conflict.hosts_filter`: the values of a conflict clause before its filter.
* `Insert.values_rows`: the values of the rows of an INSERT.
-/

namespace ParamSql

variable {α β : Type}

/-! ## Clauses without values -/

theorem Phrase.values_map (f : α → β) (p : Phrase α) : (p.map f).values = p.values.map f := by
  have hquery := congrArg Query.values (p.query_map f)
  rw [query_eq, query_eq] at hquery
  exact hquery

/-- A phrase that can be formed whatever the values are binds none. -/
theorem Phrase.values_closed (p : Phrase Empty) (f : Empty → α) : (p.map f).values = [] := by
  rw [values_map]
  cases p.values with
  | nil => rfl
  | cons v _ => exact v.elim

theorem Phrase.values_closed_ok {x : Except Rejection (Phrase Empty)} {f : Empty → α}
    {p : Phrase α} (h : x.map (Phrase.map f) = .ok p) : p.values = [] := by
  obtain ⟨q, -, rfl⟩ := map_eq_ok_iff.1 h
  exact q.values_closed f

@[simp] theorem Projection.values_selection (entries : List Projection) :
    (selection entries : Phrase α).values = [] := by
  rw [← map_selection Empty.elim]
  exact Phrase.values_closed _ _

@[simp] theorem Projection.values_returning (entries : List Projection) :
    (returning entries : Phrase α).values = [] := by
  rw [← map_returning Empty.elim]
  exact Phrase.values_closed _ _

@[simp] theorem Join.values_clause (joins : List Join) : (clause joins : Phrase α).values = [] := by
  rw [← map_clause Empty.elim]
  exact Phrase.values_closed _ _

@[simp] theorem RowLock.values_clause (locks : List RowLock) :
    (clause locks : Phrase α).values = [] := by
  rw [← map_clause Empty.elim]
  exact Phrase.values_closed _ _

theorem SortKey.values_clause {keys : List SortKey} {p : Phrase α} (h : clause keys = .ok p) :
    p.values = [] := by
  rw [clause_map Empty.elim] at h
  exact Phrase.values_closed_ok h

theorem ConflictTarget.values_phrase {target : ConflictTarget} {p : Phrase α}
    (h : target.phrase = .ok p) : p.values = [] := by
  rw [phrase_map Empty.elim] at h
  exact Phrase.values_closed_ok h

theorem values_excludedAll {columns : List Identifier} {p : Phrase α}
    (h : excludedAll columns = .ok p) : p.values = [] := by
  rw [excludedAll_map Empty.elim] at h
  exact Phrase.values_closed_ok h

@[simp] theorem Phrase.values_name (x : Identifier) : (name x : Phrase α).values = [] := rfl

@[simp] theorem Phrase.values_value (v : α) : (value v).values = [v] := rfl

theorem Phrase.values_names (columns : List Identifier) :
    (listed (columns.map (name : Identifier → Phrase α))).values = [] := by
  rw [values_listed, List.flatMap_map]
  exact List.flatMap_eq_nil_iff.2 fun x _ => rfl

/-! ## Conflict clauses -/

/-- The values of its own that an update of a row in conflict is given. -/
def ConflictAction.given : ConflictAction α → List α
  | .update (.values set) => set.values
  | _ => []

theorem UpdateSet.values_phrase {inserted : List Identifier} {set : UpdateSet α} {p : Phrase α}
    (h : set.phrase inserted = .ok p) : p.values = (ConflictAction.update set).given := by
  cases set with
  | inserted => exact values_excludedAll h
  | columns names =>
    obtain ⟨columns, -, h⟩ := bind_eq_ok_iff.1 h
    exact values_excludedAll h
  | values set =>
    simp only [phrase] at h
    split at h
    · cases h
    · obtain ⟨columns, -, h⟩ := bind_eq_ok_iff.1 h
      cases h
      have hnames : (columns.map fun column => (Phrase.name column.last : Phrase α)) =
          (columns.map Identifier.last).map .name := by
        rw [List.map_map]
        rfl
      rw [hnames, Phrase.values_concat]
      simp only [List.flatMap_cons, List.flatMap_nil, Phrase.values_parens, Phrase.values_names,
        Phrase.values_keyword, Phrase.values_bound, List.nil_append, List.append_nil]
      rfl

/-- A conflict clause binds the values of its action before those of its filter. -/
theorem Conflict.hosts_filter {c : Conflict α} {inserted : List Identifier} {p : Phrase α}
    (h : c.phrase inserted = .ok p) : ∃ filter, c.filter.compile = .ok filter ∧
      p.Hosts (.ledBy "WHERE " filter) c.action.given [] := by
  obtain ⟨target, htarget, h⟩ := bind_eq_ok_iff.1 h
  obtain ⟨filter, hfilter, h⟩ := bind_eq_ok_iff.1 h
  obtain ⟨action, haction, h⟩ := bind_eq_ok_iff.1 h
  cases h
  refine ⟨filter, hfilter, ?_⟩
  have hclause : (Phrase.spaced [.keyword "ON CONFLICT", target, action]).Hosts action [] [] :=
    .spaced [.keyword "ON CONFLICT", target] action []
      (by simp [Phrase.values_keyword, ConflictTarget.values_phrase htarget]) rfl
  have haction : action.Hosts (.ledBy "WHERE " filter) c.action.given [] := by
    unfold actionPhrase at haction
    split at haction
    · rename_i hnothing
      split at haction
      · cases haction
      · cases haction
        rw [hnothing]
        exact .spaced [] (.ledBy "WHERE " filter) [.keyword "DO NOTHING"] rfl rfl
    · rename_i set hupdate
      obtain ⟨assignments, hassignments, rfl⟩ := map_eq_ok_iff.1 haction
      rw [hupdate]
      exact .spaced [.keyword "DO UPDATE SET", assignments] (.ledBy "WHERE " filter) []
        (by simp [Phrase.values_keyword, UpdateSet.values_phrase hassignments]) rfl
  have hboth := hclause.trans haction
  exact hboth

/-! ## Rows -/

namespace Insert

/-- The values that a row of an INSERT binds, in the order of the columns of the first row. -/
def rowValues (first row : OrderedMap α) : List α := first.keys.filterMap row.get?

/-- The values of all rows, row by row. -/
def allRowValues : List (OrderedMap α) → List α
  | [] => []
  | first :: more => (first :: more).flatMap (rowValues first)

theorem values_tuple (first row : OrderedMap α) :
    (tuple first row).values = rowValues first row := by
  rw [tuple, Phrase.values_parens, Phrase.values_bound]
  rfl

/-- Every row sets the columns of the first one, and its values are written in their order. -/
def RowsFit : List (OrderedMap α) → Prop
  | [] => True
  | first :: more => ∀ row ∈ first :: more, (rowValues first row).Perm row.values ∧
      (rowValues first row).map some = first.keys.map row.get?

theorem rowsFit_cons {first : OrderedMap α} {more : List (OrderedMap α)}
    (h : ∀ row ∈ first :: more, first.keys.Perm row.keys) : RowsFit (first :: more) :=
  fun row hrow => ⟨tuple_perm (h row hrow), tuple_values (h row hrow)⟩

/-- The rows bind their values row by row, and all of them fit the first one. -/
theorem values_rows {i : Insert α} {columns : List Identifier} {p : Phrase α}
    (hcolumns : i.targetColumns = .ok columns) (h : i.valuesClause columns = .ok p) :
    p.values = allRowValues i.rows ∧ RowsFit i.rows := by
  obtain ⟨first, more, hrows, hfit, hclause⟩ := valuesClause_cases hcolumns h
  rw [hrows]
  refine ⟨?_, rowsFit_cons hfit⟩
  rcases hclause with ⟨hkeys, rfl, -, rfl⟩ | ⟨-, rfl⟩
  · simp [allRowValues, rowValues, hkeys, Phrase.values_keyword]
  · rw [Phrase.values_spaced]
    simp only [List.flatMap_cons, List.flatMap_nil, Phrase.values_parens, Phrase.values_names,
      Phrase.values_keyword, List.nil_append, List.append_nil]
    rw [Phrase.values_listed, List.flatMap_map]
    exact List.flatMap_congr fun row _ => values_tuple first row

end Insert

end ParamSql
