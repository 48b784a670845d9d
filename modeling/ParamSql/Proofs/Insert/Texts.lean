import ParamSql.Proofs.Rejections.Insert
import ParamSql.Proofs.Select.Texts

/-!
# The text of an INSERT

An INSERT that compiles is written part by part: its table, its columns with a tuple of placeholders
for each row, its conflict clause, and its RETURNING clause. The columns are what the names of the
first row are read as, without qualifiers.

Results:
* `ofCalls_eq`: what calls leave in an INSERT.
* `targetColumns_eq`: the columns from the names of the first row.
* `text_valuesClause`: the part with the columns and the rows.
* `phrase_parts`, `compile_without`: the whole statement, and one without a conflict clause.
-/

namespace ParamSql

variable {α : Type}

open Text (joined)

namespace Insert

/-! ## Calls -/

/-- The entries of the RETURNING clause that a call brings. -/
def Call.entries : Call α → List Projection
  | .returning names => (Projection.parseAll names).1
  | _ => []

theorem returning_ofCalls (table : String) (calls : List (Call α)) :
    (ofCalls table calls).returning = calls.flatMap Call.entries := by
  refine foldl_append_field returning (fun i call => ?_) calls (ofTable table)
  cases call with
  | rows rows => exact (List.append_nil _).symm
  | returning names => rfl
  | conflict target filters action => exact (List.append_nil _).symm

/-- What calls leave in an INSERT. -/
theorem ofCalls_eq (table : String) (calls : List (Call α)) : ofCalls table calls =
    { table
      rows := calls.flatMap Call.added
      conflict := (lastConflict calls).map ConflictCall.clause
      returning := calls.flatMap Call.entries
      fault := (calls.flatMap Call.faults).head? } := by
  have hparts (i : Insert α) : i = ⟨i.table, i.rows, i.conflict, i.returning, i.fault⟩ := rfl
  rw [hparts (ofCalls table calls), table_ofCalls, rows_ofCalls, conflict_ofCalls,
    returning_ofCalls, fault_eq]

/-! ## The columns -/

/-- The columns that names stand for in an INSERT; names that are no identifiers stand for none. -/
def columnsOf (names : List String) : List Identifier := names.filterMap column?

theorem column?_eq_some_iff {name : String} {column : Identifier} :
    column? name = some column ↔ ∃ x, Identifier.parse name = .ok x ∧ x.last = column := by
  unfold column?
  cases Identifier.parse name <;> simp [Except.toOption]

theorem columnsOf_append (first second : List String) :
    columnsOf (first ++ second) = columnsOf first ++ columnsOf second := List.filterMap_append

theorem columnsOf_cons {name : String} {x : Identifier} (h : Identifier.parse name = .ok x)
    (rest : List String) : columnsOf (name :: rest) = x.last :: columnsOf rest :=
  List.filterMap_cons_some (column?_eq_some_iff.2 ⟨x, h, rfl⟩)

theorem foldlM_addColumn_eq {names before : List String} {columns : List Identifier}
    (h : names.foldlM addColumn (columnsOf before) = .ok columns) :
    columns = columnsOf (before ++ names) := by
  induction names generalizing before with
  | nil =>
    cases h
    rw [List.append_nil]
  | cons name rest ih =>
    rw [List.foldlM_cons] at h
    obtain ⟨further, hadd, hrest⟩ := bind_eq_ok_iff.1 h
    obtain rfl := addColumn_column? hadd
    rw [ih hrest, List.append_assoc]
    rfl

theorem targetColumns_eq {i : Insert α} {columns : List Identifier}
    (h : i.targetColumns = .ok columns) : columns = columnsOf (firstKeys i.rows) := by
  rw [targetColumns_eq_foldlM] at h
  have hread : (firstKeys i.rows).foldlM addColumn (columnsOf []) = .ok columns := h
  exact foldlM_addColumn_eq hread

/-! ## The rows -/

/-- A row of `count` values; `n` values are bound before it. -/
def tupleText (n count : Nat) : String := "(" ++ Phrase.placeholders n count ++ ")"

/-- `count` rows of `c` values each, every row numbered behind the rows before it. -/
def tupleTexts (c count : Nat) : List String :=
  (List.range count).map fun i => tupleText (i * c) c

/-- The columns with `count` rows, as they are written. -/
def rowsText (columns : List Identifier) (count : Nat) : String :=
  if columns = [] then "DEFAULT VALUES"
  else "(" ++ ", ".intercalate (columns.map Identifier.sql) ++ ") VALUES " ++
    ", ".intercalate (tupleTexts columns.length count)

theorem length_rowValues {first row : OrderedMap α} (h : first.keys.Perm row.keys) :
    (rowValues first row).length = first.keys.length := by
  have hlength := congrArg List.length (tuple_values h)
  rwa [List.length_map, List.length_map] at hlength

theorem length_allRowValues {first : OrderedMap α} {more : List (OrderedMap α)}
    (h : ∀ row ∈ first :: more, first.keys.Perm row.keys) :
    (allRowValues (first :: more)).length = (first :: more).length * first.keys.length := by
  rw [allRowValues, List.length_flatMap,
    List.map_congr_left fun row hrow => length_rowValues (h row hrow), List.map_const',
    List.sum_replicate_nat]

theorem text_tuple {first row : OrderedMap α} (h : first.keys.Perm row.keys) (n : Nat) :
    (tuple first row).text n = tupleText n first.keys.length := by
  rw [tuple, Phrase.text_parens, Phrase.text_values, ← length_rowValues h]
  rfl

/-- Every row is numbered behind the values of the rows before it. -/
theorem texts_tuples {first : OrderedMap α} {rows : List (OrderedMap α)}
    (h : ∀ row ∈ rows, first.keys.Perm row.keys) (n : Nat) :
    Phrase.texts n (rows.map (tuple first)) = (List.range rows.length).map fun i =>
      tupleText (n + i * first.keys.length) first.keys.length := by
  induction rows generalizing n with
  | nil => rfl
  | cons row rest ih =>
    obtain ⟨hrow, hrest⟩ := List.forall_mem_cons.1 h
    rw [List.map_cons, Phrase.texts, text_tuple hrow, values_tuple, length_rowValues hrow,
      ih hrest, List.length_cons, List.range_succ_eq_map, List.map_cons, List.map_map,
      Nat.zero_mul, Nat.add_zero]
    refine congrArg _ (List.map_congr_left fun i _ => ?_)
    rw [Function.comp_apply, Nat.succ_mul, Nat.add_assoc, Nat.add_comm (i * _)]

theorem tupleText_ne_empty (n count : Nat) : tupleText n count ≠ "" := by simp [tupleText]

theorem joined_tupleTexts (c count : Nat) :
    joined ", " (tupleTexts c count) = ", ".intercalate (tupleTexts c count) :=
  Text.joined_of_ne (List.forall_mem_map.2 fun _ _ => tupleText_ne_empty _ c)

theorem intercalate_tupleTexts_ne_empty (c count : Nat) :
    ", ".intercalate (tupleTexts c (count + 1)) ≠ "" := by
  rw [← joined_tupleTexts, tupleTexts, List.range_succ_eq_map, List.map_cons]
  exact Text.joined_ne_empty (tupleText_ne_empty _ c) _

theorem text_valuesClause {i : Insert α} {columns : List Identifier} {p : Phrase α}
    (hcolumns : i.targetColumns = .ok columns) (h : i.valuesClause columns = .ok p) :
    p.text 0 = rowsText columns i.rows.length := by
  have hlength := length_targetColumns hcolumns
  obtain ⟨first, more, hrows, hfit, hclause⟩ := valuesClause_cases hcolumns h
  rw [hrows] at hlength ⊢
  replace hlength : columns.length = first.keys.length := hlength
  rcases hclause with ⟨-, -, rfl, rfl⟩ | ⟨hsome, rfl⟩
  · exact Phrase.text_keyword 0 _
  · have htuples : Phrase.texts 0 ((first :: more).map (tuple first)) =
        tupleTexts columns.length (first :: more).length := by
      rw [texts_tuples hfit, tupleTexts, hlength]
      simp only [Nat.zero_add]
    have hword : ") VALUES " = ")" ++ (" " ++ ("VALUES" ++ " ")) := by decide
    rw [Phrase.spaced, Phrase.text_seq, rowsText, if_neg hsome]
    simp only [Phrase.texts, Phrase.text_parens, Phrase.text_names, Phrase.text_keyword,
      Phrase.values_parens, Phrase.values_names, Phrase.values_keyword, List.length_nil]
    rw [Phrase.listed, Phrase.text_seq, htuples, joined_tupleTexts, Text.joined_cons (by simp),
      Text.behind_cons (by decide), List.length_cons,
      Text.behind_cons (intercalate_tupleTexts_ne_empty _ _), Text.behind, hword]
    simp only [String.append_assoc, String.append_empty]

/-! ## The statement -/

/-- An INSERT that compiles is written part by part. -/
theorem phrase_parts {table : String} {calls : List (Call α)} {p : Phrase α}
    (h : (ofCalls table calls).phrase = .ok p) :
    let rows := calls.flatMap Call.added
    let columns := columnsOf (firstKeys rows)
    ∃ conflict, (ofCalls table calls).conflictClause columns = .ok conflict ∧
      p.values = allRowValues rows ++ conflict.values ∧
      p.text 0 = joined " " ["INSERT INTO " ++ table, rowsText columns rows.length,
        conflict.text (allRowValues rows).length,
        Projection.returningText (calls.flatMap Call.entries)] := by
  obtain ⟨-, -, h⟩ := bind_eq_ok_iff.1 h
  obtain ⟨x, hx, h⟩ := bind_eq_ok_iff.1 h
  obtain ⟨columns, hcolumns, h⟩ := bind_eq_ok_iff.1 h
  obtain ⟨values, hvalues, h⟩ := bind_eq_ok_iff.1 h
  obtain ⟨conflict, hconflict, h⟩ := bind_eq_ok_iff.1 h
  cases h
  have hbound := (values_rows hcolumns hvalues).1
  have htext := text_valuesClause hcolumns hvalues
  obtain rfl := targetColumns_eq hcolumns
  have hname : x.sql = table := by
    rw [← table_ofCalls table calls]
    exact Identifier.sql_of_parse (mapError_eq_ok_iff.1 hx)
  have htable : table ≠ "" := hname ▸ x.sql_ne_empty
  rw [rows_ofCalls] at hconflict hbound htext
  refine ⟨conflict, hconflict, ?_, ?_⟩
  · simp [Phrase.values_spaced, Phrase.values_keyword, hbound]
  · rw [Phrase.spaced, Phrase.text_seq]
    simp only [Phrase.texts, Phrase.text_keyword, Phrase.text_name, Phrase.values_keyword,
      Phrase.values_name, Projection.text_returning, returning_ofCalls, hname, htext, hbound,
      List.length_nil, Nat.zero_add]
    exact Text.joined_pair (by decide) htable _

/-- What an INSERT without a conflict clause compiles to. -/
theorem compile_without {table : String} {calls : List (Call α)} {query : Query α}
    (hnone : lastConflict calls = none)
    (h : (Statement.insert (ofCalls table calls)).compile = .ok query) :
    let rows := calls.flatMap Call.added
    query = ⟨joined " " ["INSERT INTO " ++ table, rowsText (columnsOf (firstKeys rows)) rows.length,
      Projection.returningText (calls.flatMap Call.entries)], allRowValues rows⟩ := by
  obtain ⟨p, hp, rfl⟩ := map_eq_ok_iff.1 h
  obtain ⟨conflict, hconflict, hvalues, htext⟩ := phrase_parts hp
  rw [ofCalls_eq, conflictClause, hnone] at hconflict
  cases hconflict
  rw [Phrase.empty, Phrase.text_keyword] at htext
  rw [Phrase.empty, Phrase.values_keyword, List.append_nil] at hvalues
  rw [Phrase.query_text, hvalues, htext]
  exact congrArg (fun sql => Query.mk sql _) (Text.joined_skip [_, _] [_])

end Insert

end ParamSql
