import ParamSql.Proofs.Insert.Texts

/-!
# Rows in line with the columns

The columns of an INSERT are read from the names of its first row, and the values of every row are
looked up by these names. So each placeholder stands under the column that its row sets to its
value, whatever the order in which the other rows set their columns, and the first row that sets
other columns is the one that is reported.

Results:
* `columnRejections_eq_nil_iff`, `rowRejections_eq_nil_iff`: when columns and rows are accepted.
* `head?_rowRejections`: the row that is reported.
* `aligned_rowValues`: every value under its column.
* `phrase_rearranged`: the order in which other rows set their columns.
* `compile_rows`: what an INSERT of rows compiles to, and what it is rejected for.
-/

namespace ParamSql

variable {α : Type}

open Text (joined)

/-- Lists of the same length, one after the other: where the entries of each stand. -/
theorem getElem?_flatMap_of_length {β γ : Type} {f : β → List γ} {c : Nat} {bs : List β}
    (h : ∀ b ∈ bs, (f b).length = c) {i j : Nat} {b : β} (hi : bs[i]? = some b) (hj : j < c) :
    (bs.flatMap f)[i * c + j]? = (f b)[j]? := by
  induction bs generalizing i with
  | nil => simp at hi
  | cons first rest ih =>
    obtain ⟨hfirst, hrest⟩ := List.forall_mem_cons.1 h
    rw [List.flatMap_cons]
    cases i with
    | zero =>
      obtain rfl : first = b := by simpa using hi
      rw [Nat.zero_mul, Nat.zero_add, List.getElem?_append_left (hfirst ▸ hj)]
    | succ i =>
      have hindex : (i + 1) * c + j = c + (i * c + j) := by
        rw [Nat.succ_mul, Nat.add_comm _ c, Nat.add_assoc]
      rw [hindex, List.getElem?_append_right (by omega), hfirst, Nat.add_sub_cancel_left]
      exact ih hrest (by simpa using hi)

namespace OrderedMap

theorem get?_eq_some_iff (m : OrderedMap α) {key : String} {v : α} :
    m.get? key = some v ↔ (key, v) ∈ m.entries := by
  constructor
  · intro h
    obtain ⟨entry, hfind, rfl⟩ := Option.map_eq_some_iff.1 h
    obtain rfl : entry.1 = key := by simpa using List.find?_some hfind
    exact List.mem_of_find?_eq_some hfind
  · exact fun h => m.get?_of_mem h

/-- A lookup does not depend on the order of the entries. -/
theorem get?_congr {m m' : OrderedMap α} (h : m.entries.Perm m'.entries) : m.get? = m'.get? := by
  funext key
  ext v
  rw [get?_eq_some_iff, get?_eq_some_iff, h.mem_iff]

end OrderedMap

namespace Insert

/-! ## What is inserted -/

/-- Calls without a conflict clause that insert these rows, with a table and a RETURNING clause that
are read. -/
structure Inserts (table : String) (calls : List (Call α)) (rows : List (OrderedMap α)) : Prop where
  table : IsName table
  rows : calls.flatMap Call.added = rows
  returning : ∀ names, .returning names ∈ calls → ∀ name ∈ names, IsEntry name
  conflict : ∀ call ∈ calls, call.conflict? = none

/-- The row sets these columns and no others, in any order. -/
def Sets (row : OrderedMap α) (names : List String) : Prop := ∀ name, name ∈ row.keys ↔ name ∈ names

/-- There are rows, only a single one may have no columns, and the names of the first one are read as
columns that differ from each other. -/
structure Sound (rows : List (OrderedMap α)) : Prop where
  number : rows ≠ [] ∧ (firstKeys rows = [] → rows.length = 1)
  read : ∀ name ∈ firstKeys rows, IsName name
  distinct : (columnsOf (firstKeys rows)).Nodup

/-- The columns are the names of the first row without qualifiers, and every row binds the value that
it sets for each of them, in their order. -/
structure Aligned (rows : List (OrderedMap α)) (columns : List Identifier) (values : List α) :
    Prop where
  read : List.Forall₂ (fun name column => ∃ x, Identifier.parse name = .ok x ∧ x.last = column)
    (firstKeys rows) columns
  length : values.length = rows.length * columns.length
  value : ∀ (i j : Nat) (row : OrderedMap α) (name : String), rows[i]? = some row →
    (firstKeys rows)[j]? = some name →
      ∃ v, row.get? name = some v ∧ values[i * columns.length + j]? = some v
  perm : values.Perm (rows.flatMap OrderedMap.values)

/-- The same rows, but every row behind the first one may set its columns in another order. -/
def Rearranged (rows rows' : List (OrderedMap α)) : Prop :=
  rows.head? = rows'.head? ∧
    List.Forall₂ (fun row row' => row.entries.Perm row'.entries) rows rows'

theorem sets_iff {first row : OrderedMap α} : Sets row first.keys ↔ first.keys.Perm row.keys := by
  rw [List.perm_ext_iff_of_nodup first.keys_nodup row.keys_nodup]
  exact forall_congr' fun name => Iff.comm

/-! ## The columns -/

theorem columnRejection_eq_nil_iff (before : List String) (name : String) :
    columnRejection before name = [] ↔
      ∃ x, Identifier.parse name = .ok x ∧ x.last ∉ columnsOf before := by
  unfold columnRejection
  cases Identifier.parse name <;> simp [columnsOf]

theorem nodup_columnsOf_concat {before : List String} {name : String} {x : Identifier}
    (h : Identifier.parse name = .ok x) : (columnsOf (before ++ [name])).Nodup ↔
      (columnsOf before).Nodup ∧ x.last ∉ columnsOf before := by
  have hname : columnsOf [name] = [x.last] := columnsOf_cons h []
  rw [columnsOf_append, hname, List.nodup_append]
  simp [List.forall_mem_ne']

/-- Columns behind others are accepted if their names are read and they differ. -/
theorem columnRejections_eq_nil_iff {before : List String} (h : (columnsOf before).Nodup)
    (names : List String) : columnRejections before names = [] ↔
      (∀ name ∈ names, IsName name) ∧ (columnsOf (before ++ names)).Nodup := by
  induction names generalizing before with
  | nil => simpa [columnRejections] using h
  | cons name rest ih =>
    have hassoc : before ++ name :: rest = before ++ [name] ++ rest := by simp
    rw [columnRejections, List.append_eq_nil_iff, columnRejection_eq_nil_iff, List.forall_mem_cons,
      hassoc]
    constructor
    · rintro ⟨⟨x, hx, hnew⟩, hrest⟩
      obtain ⟨hread, hdistinct⟩ := (ih ((nodup_columnsOf_concat hx).2 ⟨h, hnew⟩)).1 hrest
      exact ⟨⟨⟨x, hx⟩, hread⟩, hdistinct⟩
    · rintro ⟨⟨⟨x, hx⟩, hread⟩, hdistinct⟩
      have hbefore : (columnsOf (before ++ [name])).Nodup := by
        rw [columnsOf_append, List.nodup_append] at hdistinct
        exact hdistinct.1
      exact ⟨⟨x, hx, ((nodup_columnsOf_concat hx).1 hbefore).2⟩, (ih hbefore).2 ⟨hread, hdistinct⟩⟩

theorem rowShape_notMem_columnRejections (before names : List String) (number : Nat) :
    Rejection.rowShape number ∉ columnRejections before names := by
  induction names generalizing before with
  | nil => simp [columnRejections]
  | cons name rest ih =>
    rw [columnRejections, List.mem_append, not_or]
    refine ⟨?_, ih _⟩
    unfold columnRejection
    cases Identifier.parse name with
    | error fault => simp
    | ok x => split <;> simp

theorem columns_of_read {names : List String} (h : ∀ name ∈ names, IsName name) :
    List.Forall₂ (fun name column => ∃ x, Identifier.parse name = .ok x ∧ x.last = column)
      names (columnsOf names) := by
  induction names with
  | nil => exact .nil
  | cons name rest ih =>
    obtain ⟨⟨x, hx⟩, hrest⟩ := List.forall_mem_cons.1 h
    rw [columnsOf_cons hx]
    exact .cons ⟨x, hx, rfl⟩ (ih hrest)

/-! ## The rows -/

/-- What is wrong with rows that are numbered from `start` on and have to set the columns of the
first one. -/
def shapeRejections (first : OrderedMap α) (rows : List (OrderedMap α)) (start : Nat) :
    List Rejection :=
  (rows.zipIdx start).flatMap fun numbered =>
    if first.keys.Perm numbered.1.keys then [] else [.rowShape numbered.2]

theorem shapeRejections_cons (first row : OrderedMap α) (rest : List (OrderedMap α)) (start : Nat) :
    shapeRejections first (row :: rest) start =
      (if first.keys.Perm row.keys then [] else [.rowShape start]) ++
        shapeRejections first rest (start + 1) := rfl

/-- Several rows need columns; else only the shapes of the rows can be wrong. -/
theorem rowRejections_cons (first : OrderedMap α) (more : List (OrderedMap α)) :
    rowRejections (first :: more) =
      if first.keys = [] ∧ more ≠ [] then [.noColumns]
      else shapeRejections first (first :: more) 1 := by
  rw [shapeRejections_cons, if_pos (List.Perm.refl _), List.nil_append, rowRejections]
  by_cases hnone : first.keys = []
  · cases more with
    | nil => simp [hnone, shapeRejections]
    | cons row more => simp [hnone]
  · rw [if_neg hnone, if_neg fun h => hnone h.1]
    rfl

theorem shapeRejections_eq_nil_iff (first : OrderedMap α) (rows : List (OrderedMap α))
    (start : Nat) :
    shapeRejections first rows start = [] ↔ ∀ row ∈ rows, Sets row first.keys := by
  induction rows generalizing start with
  | nil => simp [shapeRejections]
  | cons row rest ih =>
    rw [shapeRejections_cons, List.append_eq_nil_iff, ih, List.forall_mem_cons, sets_iff]
    simp

/-- The first row that sets other columns is reported. -/
theorem head?_shapeRejections (first : OrderedMap α) (rows : List (OrderedMap α))
    (start number : Nat) : (shapeRejections first rows start).head? = some (.rowShape number) ↔
      ∃ fit row rest, rows = fit ++ row :: rest ∧ (∀ r ∈ fit, Sets r first.keys) ∧
        ¬ Sets row first.keys ∧ number = start + fit.length := by
  induction rows generalizing start with
  | nil => simp [shapeRejections]
  | cons row rest ih =>
    rw [shapeRejections_cons]
    by_cases hrow : Sets row first.keys
    · rw [if_pos (sets_iff.1 hrow), List.nil_append, ih]
      constructor
      · rintro ⟨fit, other, more, rfl, hfit, hother, rfl⟩
        exact ⟨row :: fit, other, more, rfl, List.forall_mem_cons.2 ⟨hrow, hfit⟩, hother,
          by rw [List.length_cons]; omega⟩
      · rintro ⟨fit, other, more, hrows, hfit, hother, rfl⟩
        cases fit with
        | nil =>
          cases hrows
          exact absurd hrow hother
        | cons r fit =>
          cases hrows
          exact ⟨fit, other, more, rfl, (List.forall_mem_cons.1 hfit).2, hother,
            by rw [List.length_cons]; omega⟩
    · rw [if_neg (mt sets_iff.2 hrow), List.singleton_append, List.head?_cons, Option.some_inj,
        Rejection.rowShape.injEq]
      constructor
      · rintro rfl
        exact ⟨[], row, rest, rfl, by simp, hrow, rfl⟩
      · rintro ⟨fit, other, more, hrows, hfit, -, rfl⟩
        cases fit with
        | nil => rfl
        | cons r fit =>
          cases hrows
          exact absurd (hfit _ List.mem_cons_self) hrow

theorem single_iff (first : OrderedMap α) (more : List (OrderedMap α)) :
    (first :: more ≠ [] ∧ (firstKeys (first :: more) = [] → (first :: more).length = 1)) ↔
      ¬ (first.keys = [] ∧ more ≠ []) := by
  simp [firstKeys]

theorem rowRejections_eq_nil_iff (rows : List (OrderedMap α)) : rowRejections rows = [] ↔
    (rows ≠ [] ∧ (firstKeys rows = [] → rows.length = 1)) ∧
      ∀ row ∈ rows, Sets row (firstKeys rows) := by
  cases rows with
  | nil => simp [rowRejections]
  | cons first more =>
    rw [rowRejections_cons, single_iff]
    split
    · rename_i hnone
      simp [hnone]
    · rename_i hsome
      rw [shapeRejections_eq_nil_iff]
      exact (and_iff_right hsome).symm

theorem head?_rowRejections (rows : List (OrderedMap α)) (number : Nat) :
    (rowRejections rows).head? = some (.rowShape number) ↔
      (rows ≠ [] ∧ (firstKeys rows = [] → rows.length = 1)) ∧
        ∃ fit row rest, rows = fit ++ row :: rest ∧ (∀ r ∈ fit, Sets r (firstKeys rows)) ∧
          ¬ Sets row (firstKeys rows) ∧ number = fit.length + 1 := by
  cases rows with
  | nil => simp [rowRejections]
  | cons first more =>
    rw [rowRejections_cons, single_iff]
    split
    · rename_i hnone
      simp [hnone]
    · rename_i hsome
      rw [head?_shapeRejections, and_iff_right hsome]
      simp only [Nat.add_comm 1]
      rfl

theorem getElem?_rowValues {first row : OrderedMap α} (h : first.keys.Perm row.keys) {j : Nat}
    {name : String} (hj : first.keys[j]? = some name) :
    ∃ v, row.get? name = some v ∧ (rowValues first row)[j]? = some v := by
  obtain ⟨v, hv⟩ := row.exists_get? (h.mem_iff.1 (List.mem_of_getElem? hj))
  have hvalue := congrArg (fun vs => vs[j]?) (tuple_values h)
  simp only [List.getElem?_map, hj, Option.map_some, hv] at hvalue
  obtain ⟨v', hv', hsame⟩ := Option.map_eq_some_iff.1 hvalue
  exact ⟨v, hv, hsame ▸ hv'⟩

/-- The rows that fit bind every value under its column. -/
theorem aligned_rowValues {rows : List (OrderedMap α)} (hsound : Sound rows)
    (hfit : ∀ row ∈ rows, Sets row (firstKeys rows)) :
    Aligned rows (columnsOf (firstKeys rows)) (allRowValues rows) := by
  cases rows with
  | nil => exact absurd rfl hsound.number.1
  | cons first more =>
    have hperm : ∀ row ∈ first :: more, first.keys.Perm row.keys := fun row hrow =>
      sets_iff.1 (hfit row hrow)
    have hcolumns := columns_of_read hsound.read
    have hlength : (columnsOf (firstKeys (first :: more))).length = first.keys.length :=
      hcolumns.length_eq.symm
    refine ⟨hcolumns, by rw [length_allRowValues hperm, hlength], ?_, ?_⟩
    · intro i j row name hi hj
      obtain ⟨v, hv, hvalue⟩ := getElem?_rowValues (hperm row (List.mem_of_getElem? hi)) hj
      refine ⟨v, hv, ?_⟩
      rw [hlength, allRowValues, getElem?_flatMap_of_length
        (fun row hrow => length_rowValues (hperm row hrow)) hi (List.getElem?_eq_some_iff.1 hj).1,
        hvalue]
    · exact List.Perm.flatMap_left _ fun row hrow => tuple_perm (hperm row hrow)

/-! ## The order of the columns in other rows -/

theorem tupleAt_congr {first row row' : OrderedMap α} (h : row.entries.Perm row'.entries)
    (number : Nat) : tupleAt first (row, number) = tupleAt first (row', number) := by
  have hsame : sameColumns first row = sameColumns first row' := by
    rw [Bool.eq_iff_iff, sameColumns_iff, sameColumns_iff]
    exact ⟨fun hrow => hrow.trans (h.map Prod.fst), fun hrow => hrow.trans (h.map Prod.fst).symm⟩
  simp only [tupleAt, hsame, tuple, OrderedMap.get?_congr h]

theorem mapM_tupleAt_congr {first : OrderedMap α} {rows rows' : List (OrderedMap α)}
    (h : List.Forall₂ (fun row row' => row.entries.Perm row'.entries) rows rows') (start : Nat) :
    (rows.zipIdx start).mapM (tupleAt first) = (rows'.zipIdx start).mapM (tupleAt first) := by
  induction h generalizing start with
  | nil => rfl
  | cons hrow _ ih =>
    rw [List.zipIdx_cons, List.zipIdx_cons, List.mapM_cons, List.mapM_cons, tupleAt_congr hrow, ih]

theorem valuesClause_rearranged (i : Insert α) {rows : List (OrderedMap α)}
    (h : Rearranged i.rows rows) (columns : List Identifier) :
    ({ i with rows } : Insert α).valuesClause columns = i.valuesClause columns := by
  obtain ⟨hfirst, hrows⟩ := h
  unfold valuesClause
  cases hold : i.rows with
  | nil =>
    rw [hold] at hrows
    cases hrows
    rfl
  | cons first more =>
    rw [hold] at hfirst hrows
    obtain ⟨first', more', -, hmore, rfl⟩ := List.forall₂_cons_left_iff.1 hrows
    obtain rfl : first = first' := by simpa using hfirst
    have hempty : more.isEmpty = more'.isEmpty := by
      rw [Bool.eq_iff_iff, List.isEmpty_iff_length_eq_zero, List.isEmpty_iff_length_eq_zero,
        hmore.length_eq]
    simp only [hempty, mapM_tupleAt_congr hrows]

/-- The order in which the rows behind the first one set their columns has no effect. -/
theorem phrase_rearranged (i : Insert α) {rows : List (OrderedMap α)}
    (h : Rearranged i.rows rows) : ({ i with rows } : Insert α).phrase = i.phrase := by
  have hcolumns : ({ i with rows } : Insert α).targetColumns = i.targetColumns := by
    rw [targetColumns_eq_foldlM, targetColumns_eq_foldlM, firstKeys, firstKeys, h.1]
  rw [phrase, phrase, hcolumns]
  simp only [valuesClause_rearranged i h]
  rfl

theorem sound_iff (rows : List (OrderedMap α)) : Sound rows ↔
    columnRejections [] (firstKeys rows) = [] ∧
      rows ≠ [] ∧ (firstKeys rows = [] → rows.length = 1) := by
  have hnone : (columnsOf []).Nodup := List.nodup_nil
  rw [columnRejections_eq_nil_iff hnone]
  exact ⟨fun h => ⟨⟨h.read, h.distinct⟩, h.number⟩,
    fun ⟨⟨hread, hdistinct⟩, hnumber⟩ => ⟨hnumber, hread, hdistinct⟩⟩

/-! ## The statement -/

namespace Inserts

variable {table : String} {calls : List (Call α)} {rows : List (OrderedMap α)}
  (h : Inserts table calls rows)

include h

theorem faults_eq_nil : calls.flatMap Call.faults = [] := by
  refine List.flatMap_eq_nil_iff.2 fun call hcall => ?_
  cases call with
  | returning names => exact (entryFaults_eq_nil_iff names).2 (h.returning names hcall)
  | rows added => rfl
  | conflict target filters action => rfl

theorem lastConflict_eq_none : lastConflict calls = none := by
  rw [lastConflict, List.filterMap_eq_nil_iff.2 h.conflict]
  rfl

/-- Only columns and rows can be wrong with an INSERT of rows. -/
theorem rejections_eq :
    rejections table calls = columnRejections [] (firstKeys rows) ++ rowRejections rows := by
  have htable : nameRejections [table] = [] :=
    (nameRejections_eq_nil_iff [table]).2 (List.forall_mem_singleton.2 h.table)
  simp [rejections, h.rows, h.faults_eq_nil, h.lastConflict_eq_none, htable, recordedNames]

theorem exists_compile_iff :
    (∃ query, (Statement.insert (ofCalls table calls)).compile = .ok query) ↔
      Sound rows ∧ ∀ row ∈ rows, Sets row (firstKeys rows) := by
  rw [(reports_compile table calls).ok_iff, h.rejections_eq, List.append_eq_nil_iff,
    rowRejections_eq_nil_iff, ← and_assoc, sound_iff]

/-- Rows that do not fit are reported if nothing is wrong with the columns. -/
theorem compile_error_iff (number : Nat) :
    (Statement.insert (ofCalls table calls)).compile = .error (.rowShape number) ↔
      Sound rows ∧ ∃ fit row rest, rows = fit ++ row :: rest ∧
        (∀ r ∈ fit, Sets r (firstKeys rows)) ∧ ¬ Sets row (firstKeys rows) ∧
        number = fit.length + 1 := by
  rw [(reports_compile table calls).error_iff, h.rejections_eq, sound_iff, and_assoc,
    ← head?_rowRejections]
  cases hcolumns : columnRejections [] (firstKeys rows) with
  | nil => simp
  | cons cause causes =>
    have hcause : cause ≠ .rowShape number := by
      rintro rfl
      exact rowShape_notMem_columnRejections [] (firstKeys rows) number (by simp [hcolumns])
    simp [hcause]

theorem compile_eq {query : Query α}
    (hquery : (Statement.insert (ofCalls table calls)).compile = .ok query) :
    query = ⟨joined " " ["INSERT INTO " ++ table, rowsText (columnsOf (firstKeys rows)) rows.length,
      Projection.returningText (calls.flatMap Call.entries)], allRowValues rows⟩ := by
  rw [compile_without h.lastConflict_eq_none hquery, h.rows]

theorem compile_rearranged {calls' : List (Call α)} {rows' : List (OrderedMap α)}
    (h' : Inserts table calls' rows') (hrows : Rearranged rows rows')
    (hreturning : calls'.flatMap Call.entries = calls.flatMap Call.entries) :
    (Statement.insert (ofCalls table calls')).compile =
      (Statement.insert (ofCalls table calls)).compile := by
  have hrearranged : Rearranged (ofCalls table calls).rows rows' := by
    rwa [rows_ofCalls, h.rows]
  have hsame : ofCalls table calls' = { ofCalls table calls with rows := rows' } := by
    rw [ofCalls_eq, ofCalls_eq, h'.rows, hreturning, h.faults_eq_nil, h'.faults_eq_nil,
      h.lastConflict_eq_none, h'.lastConflict_eq_none]
  rw [hsame]
  exact congrArg (Except.map Phrase.query) (phrase_rearranged _ hrearranged)

end Inserts

/-- An INSERT of rows compiles exactly if its columns are sound and all rows set them; then every
value is bound under its column. Otherwise, if only the rows are at fault, the first one that sets
other columns is reported. The order in which the rows behind the first one set their columns has no
effect. -/
theorem compile_rows {table : String} {calls : List (Call α)} {rows : List (OrderedMap α)}
    (h : Inserts table calls rows) :
    ((∃ query, (Statement.insert (ofCalls table calls)).compile = .ok query) ↔
      Sound rows ∧ ∀ row ∈ rows, Sets row (firstKeys rows)) ∧
    (∀ query, (Statement.insert (ofCalls table calls)).compile = .ok query →
      ∃ columns, Aligned rows columns query.values ∧
        query.sql = joined " " ["INSERT INTO " ++ table, rowsText columns rows.length,
          Projection.returningText (calls.flatMap Call.entries)]) ∧
    (∀ number, (Statement.insert (ofCalls table calls)).compile = .error (.rowShape number) ↔
      Sound rows ∧ ∃ fit row rest, rows = fit ++ row :: rest ∧
        (∀ r ∈ fit, Sets r (firstKeys rows)) ∧ ¬ Sets row (firstKeys rows) ∧
        number = fit.length + 1) ∧
    ∀ calls' rows', Inserts table calls' rows' → Rearranged rows rows' →
      calls'.flatMap Call.entries = calls.flatMap Call.entries →
        (Statement.insert (ofCalls table calls')).compile =
          (Statement.insert (ofCalls table calls)).compile := by
  refine ⟨h.exists_compile_iff, fun query hquery => ?_, h.compile_error_iff,
    fun _ _ h' => h.compile_rearranged h'⟩
  obtain ⟨hsound, hfit⟩ := h.exists_compile_iff.1 ⟨query, hquery⟩
  obtain rfl := h.compile_eq hquery
  exact ⟨_, aligned_rowValues hsound hfit, rfl⟩

/-- A row with two columns, one of them with a qualifier. -/
def adaRow : OrderedMap Nat := .ofList [("first_name", 1), ("actor.last_name", 2)]

/-- A row with the same columns in another order. -/
def bobRow : OrderedMap Nat := .ofList [("actor.last_name", 4), ("first_name", 3)]

/-- The second row in the order of the first. -/
def bobRowInOrder : OrderedMap Nat := .ofList [("first_name", 3), ("actor.last_name", 4)]

/-- A row without one of the columns. -/
def eveRow : OrderedMap Nat := .ofList [("first_name", 5)]

/-- Calls that insert two rows behind the first, with a RETURNING clause between them. -/
def actorCalls (more : List (OrderedMap Nat)) : List (Call Nat) :=
  [.rows [adaRow], .returning ["actor_id"], .rows more]

theorem inserts_actorCalls (more : List (OrderedMap Nat)) :
    Inserts "actor" (actorCalls more) (adaRow :: more) where
  table := by decide +kernel
  rows := by simp [actorCalls, Call.added]
  returning := by
    intro names hnames
    obtain rfl : names = ["actor_id"] := by simpa [actorCalls] using hnames
    decide +kernel
  conflict := by simp [actorCalls, Call.conflict?]

/-- What the two rows are inserted with. -/
def actorQuery : Query Nat where
  sql := "INSERT INTO actor (first_name, last_name) VALUES ($1, $2), ($3, $4) RETURNING actor_id"
  values := [1, 2, 3, 4]

theorem compile_actorRows :
    Inserts "actor" (actorCalls [bobRow]) [adaRow, bobRow] ∧
      (Statement.insert (ofCalls "actor" (actorCalls [bobRow]))).compile = .ok actorQuery ∧
      (Statement.insert (ofCalls "actor" (actorCalls [bobRowInOrder]))).compile = .ok actorQuery ∧
      (Statement.insert (ofCalls "actor" (actorCalls [bobRow, eveRow]))).compile =
        .error (.rowShape 3) := by
  have hsame : (Statement.insert (ofCalls "actor" (actorCalls [bobRowInOrder]))).compile =
      (Statement.insert (ofCalls "actor" (actorCalls [bobRow]))).compile :=
    (compile_rows (inserts_actorCalls [bobRow])).2.2.2 _ _ (inserts_actorCalls [bobRowInOrder])
      ⟨rfl, .cons (.refl _) (.cons (.swap ..) .nil)⟩ rfl
  have hquery : (Statement.insert (ofCalls "actor" (actorCalls [bobRow]))).compile =
      .ok actorQuery := by decide +kernel
  have hada : Sets adaRow adaRow.keys := sets_iff.2 (by decide)
  have hbob : Sets bobRow adaRow.keys := sets_iff.2 (by decide)
  have heve : ¬ Sets eveRow adaRow.keys := mt sets_iff.1 (by decide)
  have hshape := ((compile_rows (inserts_actorCalls [bobRow, eveRow])).2.2.1 3).2
    ⟨⟨by decide, by decide +kernel, by decide +kernel⟩, [adaRow, bobRow], eveRow, [], rfl,
      List.forall_mem_cons.2 ⟨hada, List.forall_mem_singleton.2 hbob⟩, heve, rfl⟩
  exact ⟨inserts_actorCalls _, hquery, hsame.trans hquery, hshape⟩

end Insert

end ParamSql
