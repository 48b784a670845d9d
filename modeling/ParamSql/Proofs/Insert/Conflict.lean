import ParamSql.Proofs.Insert.Texts
import ParamSql.Proofs.Phrase.Linear

/-!
# The conflict clause of an INSERT

An INSERT keeps the conflict clause that was set last. The clause stands between the rows and
RETURNING, and leaves both as they are without it. It is refused for its target, then for its
filter, then for its action; a filter stands before `DO NOTHING`, where it picks an index, and
behind the assignments of `DO UPDATE`.

Results:
* `ConflictCall.rejections_eq_nil_iff`: when a conflict clause is accepted.
* `ConflictCall.text_clause`: how it is written.
* `ofCalls_withoutConflict`: the statement without it.
* `compile_conflict`: what an INSERT with a conflict clause compiles to, and what it is rejected
  for.
-/

namespace ParamSql

variable {α : Type}

open Predicate.Call (allGiven)
open Text (joined led)

/-! ## When a clause is accepted -/

/-- The target can be read: a constraint, or one column at least. -/
def ConflictTarget.IsReadable : ConflictTarget → Prop
  | .columns names => names ≠ [] ∧ ∀ name ∈ names, IsName name
  | .constraint name => IsName name

/-- The update sets something, for an INSERT into columns with these names. -/
def UpdateSet.IsAllowed (inserted : List String) : UpdateSet α → Prop
  | .inserted => inserted ≠ []
  | .columns names => names ≠ [] ∧ ∀ name ∈ names, IsName name
  | .values set => set.keys ≠ [] ∧ ∀ name ∈ set.keys, IsName name

namespace Insert

/-- A list of names that must not be empty. -/
theorem someNames_eq_nil_iff (cause : Rejection) (names : List String) :
    (if names = [] then [cause] else nameRejections names) = [] ↔
      names ≠ [] ∧ ∀ name ∈ names, IsName name := by
  by_cases hnone : names = []
  · simp [hnone]
  · rw [if_neg hnone, nameRejections_eq_nil_iff, and_iff_right hnone]

theorem targetRejections_eq_nil_iff (target : ConflictTarget) :
    targetRejections target = [] ↔ target.IsReadable := by
  cases target with
  | columns names => exact someNames_eq_nil_iff .noTargetColumns names
  | constraint name =>
    rw [targetRejections, List.map_eq_nil_iff, nameFaults_eq_nil_iff]
    exact List.forall_mem_singleton

theorem updateRejections_eq_nil_iff (inserted : List String) (set : UpdateSet α) :
    updateRejections inserted set = [] ↔ set.IsAllowed inserted := by
  cases set with
  | inserted => simp [updateRejections, UpdateSet.IsAllowed]
  | columns names =>
    rw [updateRejections, List.append_eq_nil_iff, nameRejections_eq_nil_iff, and_comm]
    exact and_congr_left fun _ => by simp
  | values set => exact someNames_eq_nil_iff .noUpdateValues set.keys

namespace ConflictCall

/-- The filter of a conflict clause. -/
def filter (c : ConflictCall α) : Predicate α := Predicate.ofCalls c.merges

/-- The clause can be written: its target is read, no fault is recorded in its filter, and its
action is allowed. A constraint takes no filter with text to pick an index. -/
structure Sound (c : ConflictCall α) (inserted : List String) : Prop where
  target : c.target.IsReadable
  filter : c.filter.fault = none
  nothing : c.action = .nothing → c.target.isConstraint = true → c.filter.phrase.query.sql = ""
  update : ∀ set, c.action = .update set → set.IsAllowed inserted

theorem actionRejections_eq_nil_iff {c : ConflictCall α} (h : c.filter.fault = none)
    (inserted : List String) : c.actionRejections inserted = [] ↔
      (c.action = .nothing → c.target.isConstraint = true → c.filter.phrase.query.sql = "") ∧
        ∀ set, c.action = .update set → set.IsAllowed inserted := by
  have hvalid : Predicate.Call.AllValid c.merges := (Predicate.fault_ofCalls _).1 h
  have htext : c.filter.phrase.query.sql = "" ↔ ¬ Predicate.Call.anyReal c.merges = true := by
    rw [Phrase.query_text, Phrase.text_eq_empty_iff, ← Predicate.isEmpty_ofCalls hvalid,
      Bool.not_eq_false]
    rfl
  unfold actionRejections
  cases c.action with
  | nothing => simp [htext]
  | update set => simp [updateRejections_eq_nil_iff]

theorem rejections_eq_nil_iff (c : ConflictCall α) (inserted : List String) :
    c.rejections inserted = [] ↔ c.Sound inserted := by
  rw [rejections, List.append_eq_nil_iff, List.append_eq_nil_iff, targetRejections_eq_nil_iff,
    recordedFilters_eq_nil_iff]
  constructor
  · rintro ⟨⟨htarget, hfilter⟩, haction⟩
    obtain ⟨hnothing, hupdate⟩ := (actionRejections_eq_nil_iff hfilter inserted).1 haction
    exact ⟨htarget, hfilter, hnothing, hupdate⟩
  · intro h
    exact ⟨⟨h.target, h.filter⟩,
      (actionRejections_eq_nil_iff h.filter inserted).2 ⟨h.nothing, h.update⟩⟩

end ConflictCall

end Insert

/-! ## How a clause is written -/

/-- A target as it is written: its names as they are given. -/
def ConflictTarget.text : ConflictTarget → String
  | .columns names => "(" ++ ", ".intercalate names ++ ")"
  | .constraint name => "ON CONSTRAINT " ++ name

/-- A column that is set to the value that was to be inserted. -/
def excludedText (column : Identifier) : String := column.sql ++ " = EXCLUDED." ++ column.sql

/-- Assignments as they are written, for an INSERT into columns with these names; `n` values are
bound before them. -/
def UpdateSet.text (inserted : List String) (n : Nat) : UpdateSet α → String
  | .inserted => ", ".intercalate ((Insert.columnsOf inserted).map excludedText)
  | .columns names => ", ".intercalate ((Insert.columnsOf names).map excludedText)
  | .values set =>
    "(" ++ ", ".intercalate ((Insert.columnsOf set.keys).map Identifier.sql) ++ ") = ROW(" ++
      Phrase.placeholders n set.size ++ ")"

namespace Insert.ConflictCall

/-- The filter as it is written; `n` values are bound before the clause. -/
def filterText (c : ConflictCall α) (n : Nat) : String :=
  led "WHERE " (c.filter.phrase.printed (n + c.action.given.length))

/-- The action with the filter at its place, as they are written. -/
def actionTexts (c : ConflictCall α) (inserted : List String) (n : Nat) : List String :=
  match c.action with
  | .nothing => [c.filterText n, "DO NOTHING"]
  | .update set => ["DO UPDATE SET", set.text inserted n, c.filterText n]

/-- The clause as it is written, for an INSERT into columns with these names; `n` values are bound
before it. -/
def clauseText (c : ConflictCall α) (inserted : List String) (n : Nat) : String :=
  joined " " ("ON CONFLICT" :: c.target.text :: c.actionTexts inserted n)

end Insert.ConflictCall

/-- Names that are all read are written as they are given. -/
theorem sql_of_mapM {names : List String} {xs : List Identifier}
    (h : names.mapM Identifier.expect = .ok xs) : xs.map Identifier.sql = names := by
  rw [← List.map_id names]
  exact map_of_mapM (fun _ _ hname => Identifier.sql_of_parse (mapError_eq_ok_iff.1 hname)) h

theorem Insert.last_columnsOf (names : List String) :
    (columnsOf names).map Identifier.last = columnsOf names := by
  have hlast : ∀ column ∈ columnsOf names, column.last = column := by
    intro column hcolumn
    obtain ⟨name, -, hname⟩ := List.mem_filterMap.1 hcolumn
    obtain ⟨x, -, rfl⟩ := column?_eq_some_iff.1 hname
    exact x.last_last
  rw [List.map_congr_left hlast, List.map_id']

theorem Insert.columnsOf_of_mapM {names : List String} {xs : List Identifier}
    (h : names.mapM Identifier.expect = .ok xs) : columnsOf names = xs.map Identifier.last := by
  have hcolumns : xs.map (fun x => some x.last) = names.map column? :=
    map_of_mapM (fun _ x hname =>
      (column?_eq_some_iff.2 ⟨x, mapError_eq_ok_iff.1 hname, rfl⟩).symm) h
  rw [columnsOf, ← Function.id_comp column?, ← List.filterMap_map, ← hcolumns, List.filterMap_map]
  exact congrFun List.filterMap_eq_map' xs

theorem ConflictTarget.text_phrase {target : ConflictTarget} {p : Phrase α}
    (h : target.phrase = .ok p) (n : Nat) : p.text n = target.text := by
  cases target with
  | columns names =>
    rw [phrase] at h
    split at h
    · cases h
    · obtain ⟨columns, hcolumns, h⟩ := bind_eq_ok_iff.1 h
      cases h
      rw [Phrase.text_parens, Phrase.text_names, sql_of_mapM hcolumns, text]
  | constraint name =>
    obtain ⟨x, hx, h⟩ := bind_eq_ok_iff.1 h
    cases h
    simp [text, Identifier.sql_of_parse (mapError_eq_ok_iff.1 hx)]

theorem text_excluded (n : Nat) (x : Identifier) :
    (excluded x : Phrase α).text n = excludedText x.last := by
  simp [excluded, excludedText, String.append_assoc]

theorem values_excluded (x : Identifier) : (excluded x : Phrase α).values = [] := by
  simp [excluded, Phrase.values_concat, Phrase.values_keyword]

theorem text_excludedAll {columns : List Identifier} {p : Phrase α}
    (h : excludedAll columns = .ok p) (n : Nat) :
    p.text n = ", ".intercalate ((columns.map Identifier.last).map excludedText) := by
  unfold excludedAll at h
  split at h
  · cases h
  · cases h
    rw [List.map_map]
    refine Phrase.text_listed ?_ (List.forall_mem_map.2 fun x _ => by simp [excludedText])
    rw [List.forall₂_map_left_iff, List.forall₂_map_right_iff, List.forall₂_same]
    exact fun x _ => ⟨text_excluded n x, values_excluded x⟩

theorem UpdateSet.text_phrase {inserted : List String} {set : UpdateSet α} {p : Phrase α}
    (h : set.phrase (Insert.columnsOf inserted) = .ok p) (n : Nat) :
    p.text n = set.text inserted n := by
  cases set with
  | inserted => rw [text_excludedAll h, Insert.last_columnsOf, text]
  | columns names =>
    obtain ⟨columns, hcolumns, h⟩ := bind_eq_ok_iff.1 h
    rw [text_excludedAll h, text, Insert.columnsOf_of_mapM hcolumns]
  | values set =>
    simp only [phrase] at h
    split at h
    · cases h
    · obtain ⟨columns, hcolumns, h⟩ := bind_eq_ok_iff.1 h
      cases h
      have hnames : (columns.map fun column => (Phrase.name column.last : Phrase α)) =
          (Insert.columnsOf set.keys).map .name := by
        rw [Insert.columnsOf_of_mapM hcolumns, List.map_map]
        rfl
      have hsize : set.values.length = set.size := List.length_map _
      simp [hnames, text, Phrase.text_parens, Phrase.text_names, Phrase.text_values,
        Phrase.values_parens, Phrase.values_names, Phrase.values_keyword, hsize,
        String.append_assoc]
      rw [← String.append_assoc]
      rfl

namespace Insert

namespace ConflictCall

variable {c : ConflictCall α} {inserted : List String} {p : Phrase α}

theorem filterText_eq (c : ConflictCall α) (n : Nat) : c.filterText n =
    (Phrase.ledBy "WHERE " c.filter.phrase).text (n + c.action.given.length) := by
  rw [Phrase.text_ledBy, Phrase.text_eq_printed, filterText]

theorem text_action (h : c.clause.actionPhrase (columnsOf inserted) c.filter.phrase = .ok p)
    (n : Nat) : p.text n = joined " " (c.actionTexts inserted n) := by
  unfold Conflict.actionPhrase at h
  split at h
  · rename_i hnothing
    replace hnothing : c.action = .nothing := hnothing
    split at h
    · cases h
    · cases h
      rw [Phrase.spaced, Phrase.text_seq, actionTexts, hnothing, filterText_eq, hnothing]
      simp only [Phrase.texts, Phrase.text_keyword]
      rfl
  · rename_i set hupdate
    replace hupdate : c.action = .update set := hupdate
    obtain ⟨assignments, hassignments, rfl⟩ := map_eq_ok_iff.1 h
    -- The filter is numbered behind the values that the assignments are given.
    rw [Phrase.spaced, Phrase.text_seq, actionTexts, hupdate, filterText_eq, hupdate]
    simp only [Phrase.texts, Phrase.text_keyword, Phrase.values_keyword, List.length_nil,
      Nat.add_zero, UpdateSet.text_phrase hassignments, UpdateSet.values_phrase hassignments]

theorem text_clause (h : c.clause.phrase (columnsOf inserted) = .ok p) (n : Nat) :
    p.text n = c.clauseText inserted n := by
  obtain ⟨target, htarget, h⟩ := bind_eq_ok_iff.1 h
  obtain ⟨filter, hfilter, h⟩ := bind_eq_ok_iff.1 h
  obtain ⟨action, haction, h⟩ := bind_eq_ok_iff.1 h
  cases h
  obtain ⟨-, rfl⟩ := (Predicate.compile_eq_ok_iff _ _).1 hfilter
  rw [Phrase.spaced, Phrase.text_seq, clauseText]
  simp only [Phrase.texts, Phrase.text_keyword, Phrase.values_keyword,
    ConflictTarget.text_phrase htarget, ConflictTarget.values_phrase htarget, List.length_nil,
    Nat.add_zero, text_action haction]
  have hword : "ON CONFLICT" ≠ "" := by decide
  exact (Text.joined_nested hword [_] (c.actionTexts inserted n) []).trans
    (by rw [List.append_nil]; rfl)

theorem values_clause (h : c.clause.phrase (columnsOf inserted) = .ok p) :
    p.values = c.action.given ++ allGiven c.merges := by
  obtain ⟨filter, hfilter, hhosts⟩ := Conflict.hosts_filter h
  rw [hhosts.values_eq, Phrase.values_ledBy, Predicate.values_ofCalls hfilter, List.append_nil]
  rfl

end ConflictCall

/-! ## The statement -/

/-- The calls but for those that set a conflict clause. -/
def withoutConflict (calls : List (Call α)) : List (Call α) :=
  calls.filter fun call => call.conflict?.isNone

theorem flatMap_withoutConflict {β : Type} {f : Call α → List β}
    (h : ∀ target filters action, f (.conflict target filters action) = [])
    (calls : List (Call α)) : (withoutConflict calls).flatMap f = calls.flatMap f := by
  refine flatMap_filter_of_nil (fun call hcall => ?_) calls
  cases call with
  | conflict target filters action => exact h target filters action
  | rows added => cases hcall
  | returning names => cases hcall

theorem lastConflict_withoutConflict (calls : List (Call α)) :
    lastConflict (withoutConflict calls) = none := by
  have hnone : (withoutConflict calls).filterMap Call.conflict? = [] :=
    List.filterMap_eq_nil_iff.2 fun call hcall => by simpa using (List.mem_filter.1 hcall).2
  rw [lastConflict, hnone]
  rfl

/-- A statement is the one without conflict clauses, with the last of them. -/
theorem ofCalls_withoutConflict (table : String) (calls : List (Call α)) : ofCalls table calls =
    { ofCalls table (withoutConflict calls) with
      conflict := (lastConflict calls).map ConflictCall.clause } := by
  rw [ofCalls_eq, ofCalls_eq, flatMap_withoutConflict fun _ _ _ => rfl,
    flatMap_withoutConflict fun _ _ _ => rfl, flatMap_withoutConflict fun _ _ _ => rfl]

theorem rejections_withoutConflict (table : String) (calls : List (Call α)) :
    rejections table calls = rejections table (withoutConflict calls) ++
      (lastConflict calls).toList.flatMap (·.rejections (firstKeys (calls.flatMap Call.added))) := by
  rw [rejections, rejections, lastConflict_withoutConflict,
    flatMap_withoutConflict fun _ _ _ => rfl, flatMap_withoutConflict fun _ _ _ => rfl]
  simp

section

variable {table : String} {calls : List (Call α)} {base : Query α} {c : ConflictCall α}
  (hbase : (Statement.insert (ofCalls table (withoutConflict calls))).compile = .ok base)
  (hlast : lastConflict calls = some c)

include hbase hlast

theorem reports_lastConflict : Reports (Statement.insert (ofCalls table calls)).compile
    (c.rejections (firstKeys (calls.flatMap Call.added))) := by
  have hnone := (reports_compile table (withoutConflict calls)).ok_iff.1 ⟨base, hbase⟩
  have hreports := reports_compile table calls
  rw [rejections_withoutConflict, hnone, hlast] at hreports
  simpa using hreports

theorem compile_lastConflict {query : Query α}
    (hquery : (Statement.insert (ofCalls table calls)).compile = .ok query) :
    let rows := calls.flatMap Call.added
    query = ⟨joined " " ["INSERT INTO " ++ table, rowsText (columnsOf (firstKeys rows)) rows.length,
      c.clauseText (firstKeys rows) base.values.length,
      Projection.returningText (calls.flatMap Call.entries)],
      base.values ++ (c.action.given ++ allGiven c.merges)⟩ := by
  have hvalues := congrArg Query.values
    (compile_without (lastConflict_withoutConflict calls) hbase)
  rw [flatMap_withoutConflict fun _ _ _ => rfl] at hvalues
  obtain ⟨p, hp, rfl⟩ := map_eq_ok_iff.1 hquery
  obtain ⟨conflict, hconflict, hbound, htext⟩ := phrase_parts hp
  rw [ofCalls_eq, conflictClause, hlast] at hconflict
  rw [Phrase.query_text, hbound, htext, ConflictCall.text_clause hconflict,
    ConflictCall.values_clause hconflict, hvalues]

end

/-- Of several conflict clauses an INSERT keeps the last. It compiles exactly if the clause is sound,
and is rejected for the target, then for the filter, then for the action. The clause then stands
between the rows and RETURNING, which are written as without it, and binds its values behind those
of the rows. -/
theorem compile_conflict {table : String} {calls : List (Call α)} {base : Query α}
    {c : ConflictCall α}
    (hbase : (Statement.insert (ofCalls table (withoutConflict calls))).compile = .ok base)
    (hlast : lastConflict calls = some c) :
    let rows := calls.flatMap Call.added
    let inserted := firstKeys rows
    let front := ["INSERT INTO " ++ table, rowsText (columnsOf inserted) rows.length]
    let back := [Projection.returningText (calls.flatMap Call.entries)]
    ((∃ query, (Statement.insert (ofCalls table calls)).compile = .ok query) ↔ c.Sound inserted) ∧
    (∀ cause, (Statement.insert (ofCalls table calls)).compile = .error cause ↔
      (targetRejections c.target ++ recordedFilters c.merges ++
        c.actionRejections inserted).head? = some cause) ∧
    (base.sql = joined " " (front ++ back) ∧
      ∀ query, (Statement.insert (ofCalls table calls)).compile = .ok query →
        query.sql = joined " " (front ++ c.clauseText inserted base.values.length :: back) ∧
          query.values = base.values ++ (c.action.given ++ allGiven c.merges)) ∧
    ∀ calls', withoutConflict calls' = withoutConflict calls → lastConflict calls' = some c →
      (Statement.insert (ofCalls table calls')).compile =
        (Statement.insert (ofCalls table calls)).compile := by
  have hreports := reports_lastConflict hbase hlast
  refine ⟨?_, hreports.error_iff, ⟨?_, fun query hquery => ?_⟩, fun calls' hsame hlast' => ?_⟩
  · rw [hreports.ok_iff, ConflictCall.rejections_eq_nil_iff]
  · rw [compile_without (lastConflict_withoutConflict calls) hbase,
      flatMap_withoutConflict fun _ _ _ => rfl, flatMap_withoutConflict fun _ _ _ => rfl]
    rfl
  · rw [compile_lastConflict hbase hlast hquery]
    exact ⟨rfl, rfl⟩
  · rw [ofCalls_withoutConflict table calls', ofCalls_withoutConflict table calls, hsame, hlast,
      hlast']

/-- A conflict clause that updates every column. -/
def ratedConflict : ConflictCall Nat where
  target := .columns ["film_id"]
  filters := [[.equal .and (.text "film.rating") 7]]
  action := .update .inserted

/-- Calls with two conflict clauses, of which the first would be refused. -/
def ratedCalls : List (Call Nat) :=
  [.conflict (.constraint "film_pkey") [[.raw .and "TRUE"]] .nothing,
    .rows [.ofList [("film_id", 1), ("film.title", 2)]], .returning ["film_id"],
    .conflict ratedConflict.target ratedConflict.filters ratedConflict.action]

/-- What they compile to without these. -/
def ratedBase : Query Nat where
  sql := "INSERT INTO film (film_id, title) VALUES ($1, $2) RETURNING film_id"
  values := [1, 2]

/-- What they compile to. -/
def ratedQuery : Query Nat where
  sql := "INSERT INTO film (film_id, title) VALUES ($1, $2) ON CONFLICT (film_id) DO UPDATE SET " ++
    "film_id = EXCLUDED.film_id, title = EXCLUDED.title WHERE film.rating = $3 RETURNING film_id"
  values := [1, 2, 7]

theorem compile_ratedCalls :
    (Statement.insert (ofCalls "film" (withoutConflict ratedCalls))).compile = .ok ratedBase ∧
      lastConflict ratedCalls = some ratedConflict ∧
      (Statement.insert (ofCalls "film" ratedCalls)).compile = .ok ratedQuery ∧
      ratedConflict.Sound ["film_id", "film.title"] ∧
      (Statement.insert (ofCalls "film" ratedCalls.tail)).compile = .ok ratedQuery := by
  have hbase : (Statement.insert (ofCalls "film" (withoutConflict ratedCalls))).compile =
      .ok ratedBase := by decide +kernel
  have hlast : lastConflict ratedCalls = some ratedConflict := rfl
  have hquery : (Statement.insert (ofCalls "film" ratedCalls)).compile = .ok ratedQuery := by
    decide +kernel
  obtain ⟨hsound, -, -, hsame⟩ := compile_conflict hbase hlast
  exact ⟨hbase, hlast, hquery, hsound.1 ⟨_, hquery⟩, (hsame _ rfl rfl).trans hquery⟩

end Insert

end ParamSql
