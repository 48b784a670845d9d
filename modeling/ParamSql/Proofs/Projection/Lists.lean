import ParamSql.Proofs.Insert.Texts
import ParamSql.Proofs.Projection.Forms
import ParamSql.Proofs.Statement.Assignments

/-!
# Column lists of statements

A column list is written with all of its entries, each as often as it was given, wildcards before
single columns and otherwise in the order of the calls. The list of a statement is what its calls
brought, one list behind the other, whatever other calls stand between them.

Results:
* `arranged_arrange`: the order in which entries are written.
* `parseAll_eq_iff`: a list of names is read without a fault exactly if each of them is.
* `Recipe.entries_statement`: the column list of a statement of any kind.
* `entries_listed`: entries, lists of them, and statements.
-/

namespace ParamSql

variable {α : Type}

namespace Projection

/-! ## The order of entries -/

/-- The same entries as they are written: wildcards first, and each group as it was given. -/
structure Arranged (entries arranged : List Projection) : Prop where
  perm : arranged.Perm entries
  first : arranged.Pairwise fun e other => other.isWildcard = true → e.isWildcard = true
  wildcards : arranged.filter isWildcard = entries.filter isWildcard
  columns : (arranged.filter fun e => !e.isWildcard) = entries.filter fun e => !e.isWildcard

theorem arranged_arrange (entries : List Projection) : Arranged entries (arrange entries) where
  perm := List.filter_append_perm isWildcard entries
  first := by
    have hwild : ∀ e ∈ entries.filter isWildcard, e.isWildcard = true :=
      fun e he => (List.mem_filter.1 he).2
    have hcolumn : ∀ e ∈ entries.filter fun e => !e.isWildcard, e.isWildcard ≠ true :=
      fun e he => by simpa using (List.mem_filter.1 he).2
    refine List.pairwise_append.2 ⟨?_, ?_, fun e he other _ _ => hwild e he⟩
    · exact List.pairwise_of_forall_mem_list fun e he other _ _ => hwild e he
    · exact List.pairwise_of_forall_mem_list fun e _ other hother h =>
        absurd h (hcolumn other hother)
  wildcards := by
    rw [arrange, List.filter_append, List.filter_filter, List.filter_filter]
    simp
  columns := by
    rw [arrange, List.filter_append, List.filter_filter, List.filter_filter]
    simp

theorem query_phrase (entry : Projection) : (entry.phrase : Phrase α).query = ⟨entry.text, []⟩ := by
  rw [Phrase.query_text, text_phrase, values_phrase]

theorem query_selection (entries : List Projection) : (selection entries : Phrase α).query =
    ⟨if entries = [] then "*" else ", ".intercalate ((arrange entries).map text), []⟩ := by
  rw [Phrase.query_text, text_selection, values_selection, listText]

/-! ## Lists of names -/

/-- A list is read without a fault exactly if each of its names is read. -/
theorem parseAll_eq_iff (names : List String) (entries : List Projection) :
    parseAll names = (entries, none) ↔
      List.Forall₂ (fun name entry => parse name = .ok entry) names entries := by
  induction names generalizing entries with
  | nil => simp [parseAll, eq_comm]
  | cons name rest ih =>
    rw [parseAll, List.forall₂_cons_left_iff]
    cases hname : parse name with
    | error fault => simp
    | ok entry =>
      simp only [Prod.mk.injEq, Except.ok.injEq, exists_and_left]
      constructor
      · rintro ⟨rfl, hfault⟩
        exact ⟨entry, rfl, _, (ih _).1 (Prod.ext rfl hfault), rfl⟩
      · rintro ⟨_, rfl, more, hmore, rfl⟩
        rw [(ih more).2 hmore]
        exact ⟨rfl, rfl⟩

end Projection

/-! ## Calls on statements -/

/-- What a call gives for the column list of a statement: names, or entries. -/
inductive Given where
  | names (texts : List String)
  | read (entries : List Projection)

namespace Given

/-- All that is given can be read, as these entries. -/
def Reads : Given → List Projection → Prop
  | .names texts, list =>
    List.Forall₂ (fun name entry => Projection.parse name = .ok entry) texts list
  | .read entries, list => entries = list

/-- The entries up to the first that can not be read. -/
def list : Given → List Projection
  | .names texts => (Projection.parseAll texts).1
  | .read entries => entries

theorem list_of_reads {given : Given} {entries : List Projection} (h : given.Reads entries) :
    given.list = entries := by
  cases given with
  | names texts => rw [list, (Projection.parseAll_eq_iff texts entries).2 h]
  | read _ => exact h

/-- Calls that give something to read bring this, one list behind the other. -/
theorem flatMap_eq_flatten {κ : Type} {given? : κ → Option Given} {added : κ → List Projection}
    (hadded : ∀ call, added call = ((given? call).map list).getD []) {calls : List κ}
    {lists : List (List Projection)} (h : List.Forall₂ Reads (calls.filterMap given?) lists) :
    calls.flatMap added = lists.flatten := by
  induction calls generalizing lists with
  | nil =>
    cases h
    rfl
  | cons call rest ih =>
    rw [List.flatMap_cons, hadded call]
    cases hcall : given? call with
    | none =>
      rw [List.filterMap_cons_none hcall] at h
      exact ih h
    | some given =>
      rw [List.filterMap_cons_some hcall] at h
      obtain ⟨first, more, hfirst, hmore, rfl⟩ := List.forall₂_cons_left_iff.1 h
      rw [List.flatten_cons, ← list_of_reads hfirst, ← ih hmore]
      rfl

end Given

/-- What a call on a SELECT gives for its column list. -/
def Select.Call.given? : Select.Call α → Option Given
  | .columns names => some (.names names)
  | .projections entries => some (.read entries)
  | _ => none

/-- What a call on an INSERT gives for its RETURNING clause. -/
def Insert.Call.given? : Insert.Call α → Option Given
  | .returning names => some (.names names)
  | _ => none

/-- What a call on an UPDATE gives for its RETURNING clause. -/
def Update.Call.given? : Update.Call α → Option Given
  | .returning names => some (.names names)
  | _ => none

/-- What a call on a DELETE gives for its RETURNING clause. -/
def Delete.Call.given? : Delete.Call α → Option Given
  | .returning names => some (.names names)
  | _ => none

/-- The column list that a statement keeps. -/
def Statement.entries : Statement α → List Projection
  | .select s => s.columns
  | .count c => c.select.columns
  | .insert i => i.returning
  | .update u => u.returning
  | .delete d => d.returning

theorem Delete.returning_ofCalls (table : String) (calls : List (Delete.Call α)) :
    (ofCalls table calls).returning =
      calls.flatMap fun call => (call.given?.map Given.list).getD [] := by
  refine foldl_append_field returning (fun d call => ?_) calls (ofTable table)
  cases call with
  | filter call => exact (List.append_nil _).symm
  | returning names => rfl

namespace Recipe

/-- What the calls give for the column list of the statement. -/
def given : Recipe α → List Given
  | .select _ calls => calls.filterMap Select.Call.given?
  | .count _ calls _ => calls.filterMap Select.Call.given?
  | .insert _ calls => calls.filterMap Insert.Call.given?
  | .update _ calls => calls.filterMap Update.Call.given?
  | .delete _ calls => calls.filterMap Delete.Call.given?

theorem entries_statement {r : Recipe α} {lists : List (List Projection)}
    (h : List.Forall₂ Given.Reads r.given lists) : r.statement.entries = lists.flatten := by
  cases r with
  | select table calls =>
    rw [statement, Statement.entries, Select.columns_ofCalls]
    refine Given.flatMap_eq_flatten (fun call => ?_) h
    cases call <;> rfl
  | count table calls filters =>
    rw [statement, Statement.entries, Count.select_ofCalls, Select.columns_ofCalls]
    refine Given.flatMap_eq_flatten (fun call => ?_) h
    cases call <;> rfl
  | insert table calls =>
    rw [statement, Statement.entries, Insert.returning_ofCalls]
    refine Given.flatMap_eq_flatten (fun call => ?_) h
    cases call <;> rfl
  | update table calls =>
    rw [statement, Statement.entries, Update.returning_ofCalls]
    refine Given.flatMap_eq_flatten (fun call => ?_) h
    cases call <;> rfl
  | delete table calls =>
    rw [statement, Statement.entries, Delete.returning_ofCalls]
    exact Given.flatMap_eq_flatten (fun _ => rfl) h

end Recipe

namespace Projection

/-- Exactly the texts of the three forms are read, with blanks around them, and no text has two
forms, even if a name in quotes has a star in it. What was read is written without these blanks, and
is read from there again. A list is written with all of its entries, wildcards first, and the list
of a statement is what its calls brought, if all of it can be read. -/
theorem entries_listed :
    (∀ input : String, (∃ entry, parse input = .ok entry) ↔
        ∃ inner, Trimmed input.toList inner ∧ ∃ form : Form, form.Admits inner) ∧
      (∀ (form other : Form) (cs : List Char), form.Admits cs → other.Admits cs → form = other) ∧
      (∀ name : String, name ≠ "" → '\x00' ∉ name.toList →
        ∃ x, Identifier.quoted name = .ok x ∧ Form.column.Admits x.sql.toList) ∧
      (∀ (input : String) (entry : Projection), parse input = .ok entry →
        Trimmed input.toList entry.text.toList ∧ entry.form.Admits entry.text.toList ∧
          (entry.phrase : Phrase α).query = ⟨entry.text, []⟩ ∧ parse entry.text = .ok entry) ∧
      (∀ entries : List Projection, ∃ arranged, Arranged entries arranged ∧
        (selection entries : Phrase α).query =
          ⟨if entries = [] then "*" else ", ".intercalate (arranged.map text), []⟩) ∧
      (∀ (names : List String) (entries : List Projection), parseAll names = (entries, none) ↔
        List.Forall₂ (fun name entry => parse name = .ok entry) names entries) ∧
      ∀ (r : Recipe α) (lists : List (List Projection)), List.Forall₂ Given.Reads r.given lists →
        r.statement.entries = lists.flatten := by
  refine ⟨exists_parse_iff, fun _ _ _ => Form.eq_of_admits, fun name hne h0 => ?_,
    fun input entry h => ⟨?_, admits_form entry, query_phrase entry, parse_text entry⟩,
    fun entries => ⟨arrange entries, arranged_arrange entries, query_selection entries⟩,
    parseAll_eq_iff, fun _ _ => Recipe.entries_statement⟩
  · have hlist : name.toList ≠ [] := by simpa using hne
    exact ⟨_, Identifier.quoted_eq_ok hlist h0, Identifier.nameText_sql _⟩
  · rwa [parse_eq_ok_iff, Text.trim_eq_iff] at h

/-- A name that looks like all columns of a table. -/
def starredName : String := "film.*"

/-- That name as a column. -/
def starredColumn : Projection := .column (.ofSegment (.quoted starredName) (by decide))

/-- All columns of a table. -/
def filmTable : Projection := .table (.ofSegment (.plain "film") (by decide))

/-- A SELECT whose columns are given in several calls. -/
def filmRecipe : Recipe Nat :=
  .select "film" [.columns [" \"film.*\" "], .limit 5, .projections [starredColumn, .all],
    .columns ["\tfilm.*"]]

theorem entries_listed_filmRecipe :
    parse " \"film.*\" " = .ok starredColumn ∧ parse starredColumn.text = .ok starredColumn ∧
      filmRecipe.statement.entries = [starredColumn, starredColumn, .all, filmTable] ∧
      ∃ arranged, Arranged [starredColumn, starredColumn, .all, filmTable] arranged ∧
        ", ".intercalate (arranged.map text) = "*, film.*, \"film.*\", \"film.*\"" := by
  obtain ⟨-, -, -, hread, hwritten, -, hstatement⟩ := entries_listed (α := Nat)
  have hcolumn : parse " \"film.*\" " = .ok starredColumn := by decide +kernel
  have htable : parse "\tfilm.*" = .ok filmTable := by decide +kernel
  obtain ⟨arranged, harranged, hquery⟩ :=
    hwritten [starredColumn, starredColumn, .all, filmTable]
  refine ⟨hcolumn, (hread _ _ hcolumn).2.2.2, ?_, arranged, harranged, ?_⟩
  · exact hstatement filmRecipe [[starredColumn], [starredColumn, .all], [filmTable]]
      (.cons (.cons hcolumn .nil) (.cons rfl (.cons (.cons htable .nil) .nil)))
  · have htext : (selection [starredColumn, starredColumn, .all, filmTable] : Phrase Nat).query =
        ⟨"*, film.*, \"film.*\", \"film.*\"", []⟩ := by decide +kernel
    rw [hquery, if_neg (List.cons_ne_nil _ _)] at htext
    exact congrArg Query.sql htext

end Projection

end ParamSql
