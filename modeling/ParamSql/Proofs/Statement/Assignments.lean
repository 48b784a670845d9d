import Mathlib.Data.List.Nodup
import ParamSql.Proofs.Identifier.Grammar
import ParamSql.Proofs.Insert.Columns
import ParamSql.Proofs.OrderedMap
import ParamSql.Proofs.Values.Statements

/-!
# Assignments in a SET list

An UPDATE merges the columns that are set by the names that they are given, and writes the last
segments of these names. So every column is set once exactly if no two names of one column are
given, and the list is then what merging by columns gives: each column where it was first set, with
what it was last set to. A conflict clause updates every column once exactly if no column is given
twice, be it under one name or under two.

Results:
* `nodup_columnText_iff`, `nodup_byColumn_iff`: when names stand for different columns.
* `Insert.nodup_insertedNames`: the columns of an INSERT are different.
* `Update.text_setClause`: a SET list as it is written.
* `Update.compile_eq`: what an UPDATE compiles to.
* `compile_setLists`: which columns a SET list sets, and how often.
-/

namespace ParamSql

variable {α β : Type}

open Predicate.Call (allGiven)
open Text (joined led)

/-! ## Columns by their names -/

/-- The column that a name stands for where it is set, as it is written: its last segment. -/
def columnText (name : String) : String := (Insert.column? name).elim name Identifier.sql

/-- No column is given under two names. -/
def OneSpelling (names : List String) : Prop :=
  ∀ name ∈ names, ∀ other ∈ names, columnText name = columnText other → name = other

/-- Entries by the columns that their names stand for. -/
def byColumn (entries : List (String × β)) : List (String × β) :=
  entries.map fun entry => (columnText entry.1, entry.2)

theorem columnText_eq {name : String} {x : Identifier} (h : Identifier.parse name = .ok x) :
    columnText name = x.last.sql := by
  rw [columnText, Insert.column?_eq_some_iff.2 ⟨x, h, rfl⟩]
  rfl

theorem byColumn_cons {name : String} {x : Identifier} (h : Identifier.parse name = .ok x) (b : β)
    (rest : List (String × β)) :
    byColumn ((name, b) :: rest) = (x.last.sql, b) :: byColumn rest := by
  rw [byColumn, List.map_cons, columnText_eq h]
  rfl

theorem keys_byColumn (entries : List (String × β)) :
    (byColumn entries).map Prod.fst = (entries.map Prod.fst).map columnText := by
  rw [byColumn, List.map_map, List.map_map]
  rfl

theorem values_byColumn (entries : List (String × β)) :
    (byColumn entries).map Prod.snd = entries.map Prod.snd := by
  rw [byColumn, List.map_map]
  rfl

theorem nodup_columnText_iff (names : List String) :
    (names.map columnText).Nodup ↔ names.Nodup ∧ OneSpelling names := by
  constructor
  · intro h
    exact ⟨List.Nodup.of_map columnText h, List.inj_on_of_nodup_map h⟩
  · rintro ⟨hnodup, hspelling⟩
    exact (List.nodup_map_iff_inj_on hnodup).2 hspelling

/-- Entries with different names set different columns exactly if no column has two names. -/
theorem nodup_byColumn_iff {given merged : List (String × β)} (h : Merges given merged) :
    ((byColumn merged).map Prod.fst).Nodup ↔ OneSpelling (given.map Prod.fst) := by
  rw [keys_byColumn, nodup_columnText_iff, and_iff_right h.nodup]
  simp only [OneSpelling, h.mem_keys]

/-- No two identifiers are written alike. -/
theorem Identifier.sql_injective : Function.Injective sql := fun x y h => by
  have hx : parse y.sql = .ok x := (parse_eq_ok_iff y.sql x).2 h
  have hy : parse y.sql = .ok y := (parse_eq_ok_iff y.sql y).2 rfl
  exact Except.ok.inj (hx.symm.trans hy)

/-- Columns without qualifiers are written as those that their names stand for. -/
theorem sql_of_bare {names : List String} {columns : List Identifier}
    (h : Insert.Bare names columns) : columns.map Identifier.sql = names.map columnText := by
  induction h with
  | nil => rfl
  | cons hname _ ih =>
    obtain ⟨x, hx, hbase⟩ := hname
    obtain rfl := Identifier.segments_eq_base_iff.1 hbase
    rw [List.map_cons, List.map_cons, columnText_eq hx, ih]

/-- The columns that an INSERT sets are written differently. -/
theorem Insert.nodup_insertedNames {table : String} {calls : List (Call α)} {query : Query α}
    (h : (Statement.insert (ofCalls table calls)).compile = .ok query) :
    ((insertedNames calls).map columnText).Nodup := by
  obtain ⟨hrows, -⟩ := sound_of_compile h
  have hbare : Bare (insertedNames calls) (columnsOf (insertedNames calls)) :=
    bare_iff.2 ⟨hrows.read, rfl⟩
  rw [← sql_of_bare hbare]
  exact List.Nodup.map Identifier.sql_injective hrows.distinct

/-! ## The SET list of an UPDATE -/

/-- What a column is set to, as it is written; `n` values are bound before it. -/
def assignedText (n : Nat) : Assigned α → String
  | .value _ => "$" ++ toString (n + 1)
  | .raw sql => sql

/-- Assignments to columns as they are written; `n` values are bound before them. -/
def assignmentTexts : Nat → List (String × Assigned α) → List String
  | _, [] => []
  | n, (column, assigned) :: rest =>
    (column ++ " = " ++ assignedText n assigned) ::
      assignmentTexts (n + assigned.value?.toList.length) rest

namespace Update

/-- The entries of the RETURNING clause that a call brings. -/
def Call.entries : Call α → List Projection
  | .returning names => (Projection.parseAll names).1
  | _ => []

/-- An UPDATE with these assignments, and with the conditions and the RETURNING clause of calls. -/
def queryWith (table : String) (calls : List (Call α)) (assignments : List (String × Assigned α)) :
    Query α :=
  let filters := calls.filterMap Call.filter?
  let bound := (assignments.map Prod.snd).filterMap Assigned.value?
  { sql := joined " " ["UPDATE " ++ table,
      "SET " ++ ", ".intercalate (assignmentTexts 0 assignments),
      led "WHERE " ((Predicate.ofCalls filters).phrase.printed bound.length),
      Projection.returningText (calls.flatMap Call.entries)]
    values := bound ++ allGiven filters }

theorem returning_ofCalls (table : String) (calls : List (Call α)) :
    (ofCalls table calls).returning = calls.flatMap Call.entries := by
  refine foldl_append_field returning (fun u call => ?_) calls (ofTable table)
  cases call with
  | set column assigned => exact (List.append_nil _).symm
  | setAll columns => exact (List.append_nil _).symm
  | filter call => exact (List.append_nil _).symm
  | returning names => rfl

theorem assignmentTexts_ne_empty (n : Nat) (assignments : List (String × Assigned α)) :
    ∀ text ∈ assignmentTexts n assignments, text ≠ "" := by
  induction assignments generalizing n with
  | nil => simp [assignmentTexts]
  | cons entry rest ih =>
    obtain ⟨column, assigned⟩ := entry
    exact List.forall_mem_cons.2 ⟨by simp, ih _⟩

theorem text_assigned (n : Nat) (assigned : Assigned α) :
    (assignedPhrase assigned).text n = assignedText n assigned := by
  cases assigned with
  | value v => exact Phrase.text_value n v
  | raw sql => exact Phrase.text_raw n sql

/-- Every assignment is numbered behind the values of the assignments before it. -/
theorem texts_assignments {entries : List (String × Assigned α)} {assignments : List (Phrase α)}
    (h : entries.mapM assignment = .ok assignments) (n : Nat) :
    Phrase.texts n assignments = assignmentTexts n (byColumn entries) := by
  have hall := mapM_eq_ok_iff.1 h
  clear h
  induction hall generalizing n with
  | nil => rfl
  | @cons entry p entries assignments hentry _ ih =>
    obtain ⟨name, assigned⟩ := entry
    have hvalues := values_assignment hentry
    obtain ⟨x, hx, rfl⟩ := map_eq_ok_iff.1 hentry
    rw [Phrase.texts, hvalues, ih, byColumn_cons (mapError_eq_ok_iff.1 hx), assignmentTexts,
      ← text_assigned]
    simp [String.append_assoc, Phrase.values_keyword]

/-- The names that a SET list is given are read, and it is written with their columns. -/
theorem text_setClause {u : Update α} {p : Phrase α} (h : u.setClause = .ok p) :
    (∀ name ∈ u.assignments.keys, IsName name) ∧ p.text 0 =
      "SET " ++ ", ".intercalate (assignmentTexts 0 (byColumn u.assignments.entries)) := by
  unfold setClause at h
  split at h
  · cases h
  · obtain ⟨assignments, hassignments, rfl⟩ := map_eq_ok_iff.1 h
    constructor
    · intro name hname
      obtain ⟨entry, hentry, rfl⟩ := List.mem_map.1 hname
      obtain ⟨p, -, hp⟩ := (mem_of_mapM hassignments).1 entry hentry
      obtain ⟨x, hx, -⟩ := map_eq_ok_iff.1 hp
      exact ⟨x, mapError_eq_ok_iff.1 hx⟩
    · have hlisted : (Phrase.listed assignments).text 0 =
          ", ".intercalate (assignmentTexts 0 (byColumn u.assignments.entries)) := by
        rw [Phrase.listed, Phrase.text_seq, texts_assignments hassignments,
          Text.joined_of_ne (assignmentTexts_ne_empty 0 _)]
      simp [hlisted, Phrase.values_keyword]

/-- An UPDATE sets its columns as they are merged by the names that are given for them. -/
theorem compile_eq {table : String} {calls : List (Call α)} {query : Query α}
    (h : (Statement.update (ofCalls table calls)).compile = .ok query) :
    let given := calls.flatMap Call.sets
    (∀ name ∈ given.map Prod.fst, IsName name) ∧
      query = queryWith table calls (byColumn (OrderedMap.ofList given).entries) := by
  obtain ⟨p, hp, rfl⟩ := map_eq_ok_iff.1 h
  obtain ⟨x, assignments, own, hx, hassignments, hown, rfl⟩ := phrase_cases hp
  rw [table_ofCalls] at hx
  rw [predicate_ofCalls] at hown
  obtain ⟨hread, htext⟩ := text_setClause hassignments
  have hbound := values_setClause hassignments
  rw [assignments_eq] at hread htext hbound
  have hgiven := Predicate.values_ofCalls hown
  obtain ⟨-, rfl⟩ := (Predicate.compile_eq_ok_iff _ _).1 hown
  have hname : x.sql = table := Identifier.sql_of_parse hx
  have htable : table ≠ "" := hname ▸ x.sql_ne_empty
  constructor
  · intro name hname
    exact hread name ((Merges.ofList _).mem_keys.2 hname)
  · rw [Phrase.query_text, queryWith, Query.mk.injEq, values_byColumn, ← Phrase.text_eq_printed]
    constructor
    · rw [Phrase.spaced, Phrase.text_seq]
      simp only [Phrase.texts, Phrase.text_keyword, Phrase.text_name, Phrase.values_keyword,
        Phrase.values_name, Projection.text_returning, returning_ofCalls, hname, hbound,
        List.length_nil, Nat.zero_add, htext, Phrase.text_ledBy]
      exact Text.joined_pair (by decide) htable _
    · simp [Phrase.values_spaced, Phrase.values_keyword, Phrase.values_ledBy, hbound, hgiven,
        setValues, OrderedMap.values]

end Update

/-! ## SET lists -/

/-- An UPDATE merges columns by the names that are given for them, and a conflict clause takes the
names as they are given; both write the last segments. So every column is set once exactly if no two
names of it are given, and then the SET list of an UPDATE is what merging by columns gives. -/
theorem compile_setLists :
    (∀ (table : String) (calls : List (Update.Call α)) (query : Query α),
      (Statement.update (Update.ofCalls table calls)).compile = .ok query →
        let given := calls.flatMap Update.Call.sets
        (∀ name ∈ given.map Prod.fst, IsName name) ∧ ∃ entries, Merges given entries ∧
          query = Update.queryWith table calls (byColumn entries) ∧
          (((byColumn entries).map Prod.fst).Nodup ↔ OneSpelling (given.map Prod.fst)) ∧
          (OneSpelling (given.map Prod.fst) → Merges (byColumn given) (byColumn entries))) ∧
    ∀ (table : String) (calls : List (Insert.Call α)) (query : Query α),
      (Statement.insert (Insert.ofCalls table calls)).compile = .ok query →
        let names := Insert.updatedNames calls
        ∃ columns : Insert.Columns, query.sql = Insert.textOn table calls columns ∧
          columns.updated.map Identifier.sql = names.map columnText ∧
          ((names.map columnText).Nodup ↔ names.Nodup ∧ OneSpelling names) ∧
          ∀ c, Insert.lastConflict calls = some c → c.action = .update .inserted →
            (names.map columnText).Nodup := by
  constructor
  · intro table calls query h
    obtain ⟨hread, hquery⟩ := Update.compile_eq h
    have hmerges := Merges.ofList (calls.flatMap Update.Call.sets)
    exact ⟨hread, _, hmerges, hquery, nodup_byColumn_iff hmerges, hmerges.rename⟩
  · intro table calls query h
    obtain ⟨columns, htext, -, hupdated, -⟩ := Insert.exists_textOn h
    refine ⟨columns, htext, sql_of_bare hupdated, nodup_columnText_iff _, fun c hlast haction => ?_⟩
    have hnames : Insert.updatedNames calls = Insert.insertedNames calls := by
      rw [Insert.updatedNames, hlast, Option.elim_some, haction]
      rfl
    rw [hnames]
    exact Insert.nodup_insertedNames h

namespace Update

/-- Calls that set a column twice, under one name. -/
def retitledCalls : List (Call Nat) :=
  [.set "title" (.value 1), .set "film.rating" (.raw "rating + 1"),
    .setAll (.ofList [("title", 2)]), .filter .all]

/-- What they compile to. -/
def retitledQuery : Query Nat where
  sql := "UPDATE film SET title = $1, rating = rating + 1 WHERE TRUE"
  values := [2]

/-- Calls that set a column twice, under two names. -/
def requalifiedCalls : List (Call Nat) :=
  [.set "title" (.value 1), .set "film.title" (.value 2), .filter .all]

/-- What they compile to: the column stands twice in the SET list. -/
def requalifiedQuery : Query Nat where
  sql := "UPDATE film SET title = $1, title = $2 WHERE TRUE"
  values := [1, 2]

end Update

theorem compile_setLists_films :
    (Statement.update (Update.ofCalls "film" Update.retitledCalls)).compile =
        .ok Update.retitledQuery ∧
      (∃ entries, Update.retitledQuery =
          Update.queryWith "film" Update.retitledCalls (byColumn entries) ∧
        Merges (byColumn (Update.retitledCalls.flatMap Update.Call.sets)) (byColumn entries)) ∧
      (Statement.insert (Insert.ofCalls "film" Insert.ratedCalls)).compile = .ok Insert.ratedQuery ∧
      ((Insert.updatedNames Insert.ratedCalls).map columnText).Nodup := by
  have hupdate : (Statement.update (Update.ofCalls "film" Update.retitledCalls)).compile =
      .ok Update.retitledQuery := by decide +kernel
  have hspelling : OneSpelling
      ((Update.retitledCalls.flatMap Update.Call.sets).map Prod.fst) := by
    unfold OneSpelling
    decide +kernel
  have hinsert : (Statement.insert (Insert.ofCalls "film" Insert.ratedCalls)).compile =
      .ok Insert.ratedQuery := by decide +kernel
  obtain ⟨hupdates, hinserts⟩ := compile_setLists (α := Nat)
  obtain ⟨-, entries, -, hquery, -, hcolumns⟩ := hupdates _ _ _ hupdate
  obtain ⟨columns, -, -, -, hnodup⟩ := hinserts _ _ _ hinsert
  exact ⟨hupdate, ⟨entries, hquery, hcolumns hspelling⟩, hinsert,
    hnodup Insert.ratedConflict rfl rfl⟩

/-- Not every UPDATE that compiles sets its columns once, with what they were last set to. -/
theorem column_setTwice : ¬ ∀ (calls : List (Update.Call Nat)) (query : Query Nat),
    (Statement.update (Update.ofCalls "film" calls)).compile = .ok query →
      ∃ assignments, Merges (byColumn (calls.flatMap Update.Call.sets)) assignments ∧
        query = Update.queryWith "film" calls assignments := by
  intro h
  have hcompile : (Statement.update (Update.ofCalls "film" Update.requalifiedCalls)).compile =
      .ok Update.requalifiedQuery := by decide +kernel
  obtain ⟨assignments, hmerges, hquery⟩ := h _ _ hcompile
  rw [hmerges.unique (Merges.ofList _)] at hquery
  exact absurd hquery (by decide +kernel)

end ParamSql
