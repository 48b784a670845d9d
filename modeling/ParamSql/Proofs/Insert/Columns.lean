import ParamSql.Proofs.Insert.Conflict
import ParamSql.Proofs.Insert.Rows
import ParamSql.Proofs.Insert.Written

/-!
# Columns of an INSERT without qualifiers

The columns of the rows and the columns that are updated are written without the qualifiers of their
names. The columns that a conflict is found on are written as they are given, so that these have no
qualifiers exactly if the caller gave none.

Results:
* `bare_iff`, `AsGiven.bare_iff`: which columns the names of a caller leave without qualifiers.
* `sound_of_compile`: the rows and the conflict clause of an INSERT that compiles.
* `exists_textOn`: an INSERT that compiles by the columns that stand in it.
* `compile_columns`: when these columns have no qualifiers.
-/

namespace ParamSql

variable {α : Type}

open Text (joined)

theorem Identifier.segments_eq_base_iff {x column : Identifier} :
    column.segments = [x.base] ↔ x.last = column := by
  obtain ⟨head, tail, hvalid⟩ := column
  rw [last, ofSegment, Identifier.mk.injEq, segments, List.cons.injEq, eq_comm (a := head),
    eq_comm (a := tail)]

/-- An identifier without qualifiers is its last segment. -/
theorem Identifier.last_eq_self_iff (x : Identifier) : x.last = x ↔ x.isQualified = false := by
  obtain ⟨head, tail, hvalid⟩ := x
  rw [isQualified, Bool.not_eq_false', List.isEmpty_iff]
  constructor
  · intro h
    exact (congrArg Identifier.tail h).symm
  · rintro rfl
    rfl

/-! ## Texts by their columns -/

/-- The names of the columns that an update sets, for an INSERT into columns with these names. -/
def UpdateSet.setNames (inserted : List String) : UpdateSet α → List String
  | .inserted => inserted
  | .columns names => names
  | .values set => set.keys

/-- The names of the columns that an action sets. -/
def ConflictAction.setNames (inserted : List String) : ConflictAction α → List String
  | .nothing => []
  | .update set => set.setNames inserted

/-- A target with these columns. -/
def ConflictTarget.textOn (columns : List Identifier) : ConflictTarget → String
  | .columns _ => "(" ++ ", ".intercalate (columns.map Identifier.sql) ++ ")"
  | .constraint name => "ON CONSTRAINT " ++ name

/-- Assignments to these columns; `n` values are bound before them. -/
def UpdateSet.textOn (columns : List Identifier) (n : Nat) : UpdateSet α → String
  | .values set =>
    "(" ++ ", ".intercalate (columns.map Identifier.sql) ++ ") = ROW(" ++
      Phrase.placeholders n set.size ++ ")"
  | _ => ", ".intercalate (columns.map excludedText)

theorem ConflictTarget.exists_textOn {c : Conflict α} (h : c.target.IsReadable) :
    ∃ columns, List.Forall₂ (fun name x => Identifier.parse name = .ok x) c.targetNames columns ∧
      c.target.text = c.target.textOn columns := by
  obtain ⟨target, action, filter⟩ := c
  cases target with
  | columns names =>
    obtain ⟨columns, hcolumns⟩ := exists_mapM_eq_ok_iff.2 h.2
    have hsql : columns.map Identifier.sql = names := by
      rw [← List.map_id names]
      exact map_of_mapM (fun _ _ => Identifier.sql_of_parse) hcolumns
    exact ⟨columns, mapM_eq_ok_iff.1 hcolumns, by rw [text, textOn, hsql]⟩
  | constraint name => exact ⟨[], .nil, rfl⟩

theorem UpdateSet.text_eq (inserted : List String) (n : Nat) (set : UpdateSet α) :
    set.text inserted n = set.textOn (Insert.columnsOf (set.setNames inserted)) n := by
  cases set <;> rfl

namespace Insert

/-- The columns that stand in an INSERT: those of its rows, those that a conflict is found on, and
those that are updated. -/
@[ext] structure Columns where
  inserted : List Identifier
  target : List Identifier
  updated : List Identifier

/-- There is a column for each name, which is the last segment of it and nothing else. -/
def Bare (names : List String) (columns : List Identifier) : Prop :=
  List.Forall₂ (fun name column => ∃ x, Identifier.parse name = .ok x ∧ column.segments = [x.base])
    names columns

/-- There is a column for each name, as it is given. -/
def AsGiven (names : List String) (columns : List Identifier) : Prop :=
  List.Forall₂ (fun name column => Identifier.parse name = .ok column) names columns

/-- A conflict clause with these columns; `n` values are bound before it. -/
def ConflictCall.textOn (columns : Columns) (n : Nat) (c : ConflictCall α) : String :=
  joined " " ("ON CONFLICT" :: c.target.textOn columns.target ::
    match c.action with
    | .nothing => [c.filterText n, "DO NOTHING"]
    | .update set => ["DO UPDATE SET", set.textOn columns.updated n, c.filterText n])

/-- An INSERT with these columns. -/
def textOn (table : String) (calls : List (Call α)) (columns : Columns) : String :=
  let rows := calls.flatMap Call.added
  joined " " ["INSERT INTO " ++ table, rowsText columns.inserted rows.length,
    (lastConflict calls).elim "" (ConflictCall.textOn columns (allRowValues rows).length),
    Projection.returningText (calls.flatMap Call.entries)]

/-- The names of the columns that are inserted. -/
def insertedNames (calls : List (Call α)) : List String := firstKeys (calls.flatMap Call.added)

/-- The names of the columns that a conflict is found on. -/
def targetNames (calls : List (Call α)) : List String :=
  (lastConflict calls).elim [] fun c => c.clause.targetNames

/-- The names of the columns that are updated. -/
def updatedNames (calls : List (Call α)) : List String :=
  (lastConflict calls).elim [] fun c => c.action.setNames (insertedNames calls)

/-! ## Columns by their names -/

/-- Columns without qualifiers are those that the names stand for. -/
theorem bare_iff {names : List String} {columns : List Identifier} :
    Bare names columns ↔ (∀ name ∈ names, IsName name) ∧ columns = columnsOf names := by
  simp only [Bare, Identifier.segments_eq_base_iff]
  constructor
  · intro h
    induction h with
    | nil => exact ⟨by simp, rfl⟩
    | @cons name column names columns hname _ ih =>
      obtain ⟨x, hx, rfl⟩ := hname
      obtain ⟨hread, rfl⟩ := ih
      exact ⟨List.forall_mem_cons.2 ⟨⟨x, hx⟩, hread⟩, (columnsOf_cons hx names).symm⟩
  · rintro ⟨hread, rfl⟩
    exact columns_of_read hread

/-- Columns as they are given are bare exactly if they have no qualifiers. -/
theorem AsGiven.bare_iff {names : List String} {columns : List Identifier}
    (h : AsGiven names columns) :
    Bare names columns ↔ ∀ column ∈ columns, column.isQualified = false := by
  simp only [Bare, Identifier.segments_eq_base_iff]
  induction h with
  | nil => simp
  | @cons name column names columns hname _ ih =>
    rw [List.forall₂_cons, ih, List.forall_mem_cons, ← column.last_eq_self_iff, hname]
    simp

/-- Columns that are bare at all three places are those that the names stand for. -/
theorem eq_columnsOf {calls : List (Call α)} {columns : Columns}
    (hinserted : Bare (insertedNames calls) columns.inserted)
    (htarget : Bare (targetNames calls) columns.target)
    (hupdated : Bare (updatedNames calls) columns.updated) :
    columns = ⟨columnsOf (insertedNames calls), columnsOf (targetNames calls),
      columnsOf (updatedNames calls)⟩ :=
  Columns.ext (bare_iff.1 hinserted).2 (bare_iff.1 htarget).2 (bare_iff.1 hupdated).2

/-! ## INSERTs that compile -/

/-- The rows and the conflict clause of an INSERT that compiles are sound. -/
theorem sound_of_compile {table : String} {calls : List (Call α)} {query : Query α}
    (h : (Statement.insert (ofCalls table calls)).compile = .ok query) :
    Sound (calls.flatMap Call.added) ∧
      ∀ c, lastConflict calls = some c → c.Sound (insertedNames calls) := by
  have hnone := (reports_compile table calls).ok_iff.1 ⟨query, h⟩
  simp only [rejections, List.append_eq_nil_iff] at hnone
  obtain ⟨⟨⟨-, hcolumns⟩, hrows⟩, hconflict⟩ := hnone
  have hbefore : (columnsOf []).Nodup := List.nodup_nil
  obtain ⟨hread, hdistinct⟩ := (columnRejections_eq_nil_iff hbefore _).1 hcolumns
  obtain ⟨hnumber, -⟩ := (rowRejections_eq_nil_iff _).1 hrows
  refine ⟨⟨hnumber, hread, hdistinct⟩, fun c hc => ?_⟩
  rw [hc, Option.toList_some, List.flatMap_singleton] at hconflict
  exact (c.rejections_eq_nil_iff _).1 hconflict

namespace ConflictCall

variable {c : ConflictCall α} {inserted : List String}

/-- The names of the columns that a sound clause updates are read. -/
theorem read_names (h : c.Sound inserted) (hinserted : ∀ name ∈ inserted, IsName name) :
    ∀ name ∈ c.action.setNames inserted, IsName name := by
  have hallowed := h.update
  cases haction : c.action with
  | nothing => simp [ConflictAction.setNames]
  | update set =>
    replace hallowed := hallowed set haction
    cases set with
    | inserted => exact hinserted
    | columns names => exact hallowed.2
    | values set => exact hallowed.2

/-- A sound clause is written with the columns of its target as they are given, and with the columns
that it updates without qualifiers. -/
theorem exists_textOn (h : c.Sound inserted) (columns : List Identifier) (n : Nat) :
    ∃ target, AsGiven c.clause.targetNames target ∧ c.clauseText inserted n =
      c.textOn ⟨columns, target, columnsOf (c.action.setNames inserted)⟩ n := by
  have hreadable : c.clause.target.IsReadable := h.target
  obtain ⟨target, hgiven, htext⟩ := ConflictTarget.exists_textOn hreadable
  replace htext : c.target.text = c.target.textOn target := htext
  refine ⟨target, hgiven, ?_⟩
  rw [clauseText, textOn, htext, actionTexts]
  cases c.action with
  | nothing => rfl
  | update set =>
    simp only [UpdateSet.text_eq]
    rfl

end ConflictCall

/-- An INSERT that compiles is written with the columns of its rows and the columns that it updates
without qualifiers, and with the columns that a conflict is found on as they are given. -/
theorem exists_textOn {table : String} {calls : List (Call α)} {query : Query α}
    (h : (Statement.insert (ofCalls table calls)).compile = .ok query) :
    ∃ columns : Columns, query.sql = textOn table calls columns ∧
      Bare (insertedNames calls) columns.inserted ∧ Bare (updatedNames calls) columns.updated ∧
      AsGiven (targetNames calls) columns.target := by
  obtain ⟨hrows, hconflict⟩ := sound_of_compile h
  have hinserted : Bare (insertedNames calls) (columnsOf (insertedNames calls)) :=
    bare_iff.2 ⟨hrows.read, rfl⟩
  obtain ⟨p, hp, rfl⟩ := map_eq_ok_iff.1 h
  obtain ⟨conflict, hclause, -, htext⟩ := phrase_parts hp
  rw [ofCalls_eq, conflictClause] at hclause
  unfold textOn targetNames updatedNames
  rw [Phrase.query_text, htext]
  cases hlast : lastConflict calls with
  | none =>
    rw [hlast] at hclause
    cases hclause
    rw [Phrase.empty, Phrase.text_keyword]
    exact ⟨⟨_, [], []⟩, rfl, hinserted, .nil, .nil⟩
  | some c =>
    rw [hlast] at hclause
    replace hconflict := hconflict c hlast
    obtain ⟨target, hgiven, hwritten⟩ := ConflictCall.exists_textOn hconflict
      (columnsOf (insertedNames calls)) (allRowValues (calls.flatMap Call.added)).length
    have hupdated := bare_iff.2 ⟨ConflictCall.read_names hconflict hrows.read, rfl⟩
    -- The columns of the rows do not stand in the clause, so that any may be taken there.
    have hsame := (ConflictCall.text_clause hclause _).trans hwritten
    rw [hsame]
    exact ⟨⟨_, target, _⟩, rfl, hinserted, hupdated, hgiven⟩

/-- The columns of the rows and the columns that are updated are written as the last segments of
their names, and the columns that a conflict is found on as their names are given. So these are the
last segments of their names exactly if none of them is given with a qualifier. -/
theorem compile_columns {table : String} {calls : List (Call α)} {query : Query α}
    (h : (Statement.insert (ofCalls table calls)).compile = .ok query) :
    ∃ columns : Columns, query.sql = textOn table calls columns ∧
      Bare (insertedNames calls) columns.inserted ∧
      Bare (updatedNames calls) columns.updated ∧
      AsGiven (targetNames calls) columns.target ∧
      (Bare (targetNames calls) columns.target ↔
        ∀ column ∈ columns.target, column.isQualified = false) := by
  obtain ⟨columns, htext, hinserted, hupdated, hgiven⟩ := exists_textOn h
  exact ⟨columns, htext, hinserted, hupdated, hgiven, hgiven.bare_iff⟩

/-- A row and an update whose columns are given with qualifiers. -/
def renamedCalls : List (Call Nat) :=
  [.rows [.ofList [("actor.actor_id", 1), ("public.actor.\"name\"", 2)]],
    .conflict (.columns ["\"actor_id\""]) [] (.update (.values (.ofList [("actor.name", 3)])))]

/-- What they compile to. -/
def renamedQuery : Query Nat where
  sql := "INSERT INTO actor (actor_id, \"name\") VALUES ($1, $2) " ++
    "ON CONFLICT (\"actor_id\") DO UPDATE SET (name) = ROW($3)"
  values := [1, 2, 3]

theorem compile_columns_renamedCalls :
    (Statement.insert (ofCalls "actor" renamedCalls)).compile = .ok renamedQuery ∧
      ∃ columns : Columns, renamedQuery.sql = textOn "actor" renamedCalls columns ∧
        Bare ["actor.actor_id", "public.actor.\"name\""] columns.inserted ∧
        Bare ["actor.name"] columns.updated ∧ AsGiven ["\"actor_id\""] columns.target := by
  have hquery : (Statement.insert (ofCalls "actor" renamedCalls)).compile = .ok renamedQuery := by
    decide +kernel
  have hinserted : insertedNames renamedCalls = ["actor.actor_id", "public.actor.\"name\""] := by
    decide +kernel
  have hupdated : updatedNames renamedCalls = ["actor.name"] := by decide +kernel
  have htarget : targetNames renamedCalls = ["\"actor_id\""] := rfl
  obtain ⟨columns, htext, hbare, hset, hgiven, -⟩ := compile_columns hquery
  rw [hinserted] at hbare
  rw [hupdated] at hset
  rw [htarget] at hgiven
  exact ⟨hquery, columns, htext, hbare, hset, hgiven⟩

/-- A conflict that is found on a column which is given with a qualifier. -/
def qualifiedCalls : List (Call Nat) :=
  [.rows [.ofList [("actor_id", 1)]], .conflict (.columns ["actor.actor_id"]) [] .nothing]

/-- What they compile to: the qualifier stands in the target. -/
def qualifiedQuery : Query Nat where
  sql := "INSERT INTO actor (actor_id) VALUES ($1) ON CONFLICT (actor.actor_id) DO NOTHING"
  values := [1]

/-- Not every INSERT that compiles has columns without qualifiers at all three places. -/
theorem target_qualified : ¬ ∀ (calls : List (Call Nat)) (query : Query Nat),
    (Statement.insert (ofCalls "actor" calls)).compile = .ok query →
      ∃ columns : Columns, query.sql = textOn "actor" calls columns ∧
        Bare (insertedNames calls) columns.inserted ∧ Bare (targetNames calls) columns.target ∧
        Bare (updatedNames calls) columns.updated := by
  intro h
  have hquery : (Statement.insert (ofCalls "actor" qualifiedCalls)).compile =
      .ok qualifiedQuery := by decide +kernel
  obtain ⟨columns, htext, hinserted, htarget, hupdated⟩ := h _ _ hquery
  rw [eq_columnsOf hinserted htarget hupdated] at htext
  exact absurd htext (by decide +kernel)

end Insert

end ParamSql
