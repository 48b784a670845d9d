import ParamSql.Proofs.Phrase.Text
import ParamSql.Proofs.Rejections.Names
import ParamSql.Proofs.Values.Clauses

/-!
# The clauses of a SELECT in its caller's words

A clause is written with the names that its calls were given, character for character, and with the
conditions of raw joins as they are. Only the words of a sort key are put into upper case.

Results:
* `Projection.text_selection`, `Projection.text_returning`: a column list, and a RETURNING clause.
* `Join.text_of_parse`: a join.
* `SortKey.text_clause`: the ORDER BY clause.
* `RowLock.text_phrase`: a lock.
-/

namespace ParamSql

variable {α : Type}

open Text (joined led upper)

/-! ## Sequences of phrases without values -/

namespace Phrase

theorem texts_closed {items : List (Phrase α)} (h : ∀ p ∈ items, p.values = []) (n : Nat) :
    texts n items = items.map (text n) := by
  induction items with
  | nil => rfl
  | cons p rest ih =>
    obtain ⟨hp, hrest⟩ := List.forall_mem_cons.1 h
    rw [texts, List.map_cons, hp, ← ih hrest]
    rfl

theorem text_seq_closed {items : List (Phrase α)} (h : ∀ p ∈ items, p.values = [])
    (n : Nat) (separator : String) :
    (seq separator items).text n = joined separator (items.map (text n)) := by
  rw [text_seq, texts_closed h]

/-- Items of a list that have these texts, none of them empty. -/
theorem text_listed {n : Nat} {words : List String} {items : List (Phrase α)}
    (h : List.Forall₂ (fun word p => p.text n = word ∧ p.values = []) words items)
    (hwords : ∀ word ∈ words, word ≠ "") : (listed items).text n = ", ".intercalate words := by
  have hitems : items.map (text n) = words ∧ ∀ p ∈ items, p.values = [] := by
    clear hwords
    induction h with
    | nil => exact ⟨rfl, by simp⟩
    | cons hp _ ih =>
      obtain ⟨hrest, hvalues⟩ := ih
      exact ⟨by rw [List.map_cons, hp.1, hrest], List.forall_mem_cons.2 ⟨hp.2, hvalues⟩⟩
  rw [listed, text_seq_closed hitems.2, hitems.1, Text.joined_of_ne hwords]

/-- Names in a list are written as they are. -/
theorem text_names (n : Nat) (xs : List Identifier) :
    (listed (xs.map name) : Phrase α).text n = ", ".intercalate (xs.map Identifier.sql) := by
  refine text_listed ?_ (List.forall_mem_map.2 fun x _ => ?_)
  · rw [List.forall₂_map_left_iff, List.forall₂_map_right_iff, List.forall₂_same]
    exact fun x _ => ⟨text_name n x, rfl⟩
  · exact x.sql_ne_empty

end Phrase

/-! ## The column list -/

namespace Projection

/-- An entry as it is written. -/
def text : Projection → String
  | .column name => name.sql
  | .table name => name.sql ++ ".*"
  | .all => "*"

/-- A column list as it is written: wildcards first, and everything if nothing is selected. -/
def listText (entries : List Projection) : String :=
  if entries = [] then "*" else ", ".intercalate ((arrange entries).map text)

theorem values_phrase (entry : Projection) : (entry.phrase : Phrase α).values = [] := by
  rw [← map_phrase Empty.elim]
  exact Phrase.values_closed _ _

theorem text_phrase (n : Nat) (entry : Projection) :
    (entry.phrase : Phrase α).text n = entry.text := by
  cases entry with
  | column name => exact Phrase.text_name n name
  | table name => simp [phrase, text]
  | all => exact Phrase.text_keyword n "*"

theorem text_ne_empty (entry : Projection) : entry.text ≠ "" := by
  rw [← text_phrase (α := Empty) 0, Ne, Phrase.text_eq_empty_iff]
  cases entry <;> simp [phrase, Phrase.concat, Phrase.isEmpty, Phrase.allEmpty]

theorem listText_ne_empty (entries : List Projection) : listText entries ≠ "" := by
  cases entries with
  | nil => decide
  | cons first rest =>
    rw [listText, if_neg (by simp)]
    cases h : arrange (first :: rest) with
    | nil =>
      have hfirst := (mem_arrange first (first :: rest)).2 List.mem_cons_self
      simp [h] at hfirst
    | cons entry more =>
      rw [← Text.joined_of_ne (List.forall_mem_map.2 fun entry _ => text_ne_empty entry)]
      exact Text.joined_ne_empty (text_ne_empty entry) _

theorem text_selection (n : Nat) (entries : List Projection) :
    (selection entries : Phrase α).text n = listText entries := by
  cases entries with
  | nil => exact Phrase.text_keyword n "*"
  | cons first rest =>
    rw [selection, listText, if_neg (by simp), if_neg (by simp)]
    refine Phrase.text_listed ?_ (List.forall_mem_map.2 fun entry _ => text_ne_empty entry)
    rw [List.forall₂_map_left_iff, List.forall₂_map_right_iff, List.forall₂_same]
    exact fun entry _ => ⟨text_phrase n entry, values_phrase entry⟩

/-- A RETURNING clause as it is written. -/
def returningText (entries : List Projection) : String :=
  if entries = [] then "" else "RETURNING " ++ listText entries

theorem text_returning (n : Nat) (entries : List Projection) :
    (returning entries : Phrase α).text n = returningText entries := by
  cases entries with
  | nil => exact Phrase.text_keyword n ""
  | cons first rest => simp [returning, returningText, text_selection]

end Projection

/-! ## Joins -/

/-- The condition of a join in the caller's words. -/
def JoinOn.text : JoinOn → String
  | .columns a b => a ++ " = " ++ b
  | .raw sql => sql

namespace Join

/-- A join in the caller's words. -/
def textOf (kind : JoinKind) (table : String) (on : JoinOn) : String :=
  keyword kind ++ table ++ " ON " ++ on.text

theorem values_phrase (j : Join) : (j.phrase : Phrase α).values = [] := by
  rw [← map_phrase Empty.elim]
  exact Phrase.values_closed _ _

theorem text_of_parse {kind : JoinKind} {table : String} {on : JoinOn} {j : Join}
    (h : parse kind table on = .ok j) (n : Nat) :
    (j.phrase : Phrase α).text n = textOf kind table on := by
  unfold parse at h
  cases on with
  | columns a b =>
    simp only [pure_bind] at h
    obtain ⟨x, hx, h⟩ := bind_eq_ok_iff.1 h
    obtain ⟨y, hy, h⟩ := bind_eq_ok_iff.1 h
    obtain ⟨owner, howner, h⟩ := bind_eq_ok_iff.1 h
    cases h
    simp [phrase, conditionPhrase, textOf, JoinOn.text, Identifier.sql_of_parse hx,
      Identifier.sql_of_parse hy, Identifier.sql_of_parse howner, String.append_assoc]
  | raw sql =>
    simp only [pure_bind] at h
    obtain ⟨owner, howner, h⟩ := bind_eq_ok_iff.1 h
    cases h
    simp [phrase, conditionPhrase, textOf, JoinOn.text, Identifier.sql_of_parse howner,
      String.append_assoc]

end Join

/-! ## Sort keys -/

namespace SortKey

/-- A sort key as it is written: its column as it is, its words in upper case. -/
def text (k : SortKey) : String :=
  k.column ++ " " ++ upper k.direction ++ k.nulls.elim "" fun nulls => " NULLS " ++ upper nulls

/-- The ORDER BY clause as it is written. -/
def clauseText (keys : List SortKey) : String :=
  led "ORDER BY " (", ".intercalate (keys.map text))

theorem directionText_eq {k : SortKey} {direction : String} (h : k.directionText = .ok direction) :
    direction = " " ++ upper k.direction := by
  unfold directionText at h
  split at h
  · rename_i hasc
    cases h
    rw [hasc]
    rfl
  · split at h
    · rename_i hdesc
      cases h
      rw [hdesc]
      rfl
    · cases h

theorem nullsText_eq {k : SortKey} {nulls : String} (h : k.nullsText = .ok nulls) :
    nulls = k.nulls.elim "" fun nulls => " NULLS " ++ upper nulls := by
  unfold nullsText at h
  split at h
  · rename_i hnone
    cases h
    rw [hnone]
    rfl
  · rename_i word hsome
    rw [hsome, Option.elim_some]
    split at h
    · rename_i hfirst
      cases h
      rw [hfirst]
      rfl
    · split at h
      · rename_i hlast
        cases h
        rw [hlast]
        rfl
      · cases h

theorem text_of_phrase {k : SortKey} {p : Phrase α} (h : k.phrase = .ok p) (n : Nat) :
    p.text n = k.text ∧ p.values = [] := by
  obtain ⟨column, hcolumn, h⟩ := bind_eq_ok_iff.1 h
  obtain ⟨direction, hdirection, h⟩ := bind_eq_ok_iff.1 h
  obtain ⟨nulls, hnulls, h⟩ := bind_eq_ok_iff.1 h
  cases h
  have hname : column.sql = k.column :=
    Identifier.sql_of_parse (mapError_eq_ok_iff.1 hcolumn)
  refine ⟨?_, by simp [Phrase.values_concat, Phrase.values_keyword]⟩
  simp [text, hname, directionText_eq hdirection, nullsText_eq hnulls, String.append_assoc]

theorem text_ne_empty (k : SortKey) : k.text ≠ "" := by
  intro h
  simp [text] at h

theorem clauseText_eq (keys : List SortKey) : clauseText keys =
    if keys = [] then "" else "ORDER BY " ++ ", ".intercalate (keys.map text) := by
  cases keys with
  | nil => rfl
  | cons first rest =>
    have hsome : ", ".intercalate ((first :: rest).map text) ≠ "" := by
      rw [← Text.joined_of_ne (List.forall_mem_map.2 fun k _ => text_ne_empty k)]
      exact Text.joined_ne_empty (text_ne_empty first) _
    rw [clauseText, led, if_neg hsome, if_neg (List.cons_ne_nil first rest)]

theorem text_clause {keys : List SortKey} {p : Phrase α} (h : clause keys = .ok p) (n : Nat) :
    p.text n = clauseText keys := by
  unfold clause at h
  cases keys with
  | nil =>
    cases h
    rfl
  | cons first rest =>
    obtain ⟨phrases, hphrases, rfl⟩ := map_eq_ok_iff.1 h
    have hlist : (Phrase.listed phrases).text n = ", ".intercalate ((first :: rest).map text) := by
      refine Phrase.text_listed ?_ (List.forall_mem_map.2 fun k _ => text_ne_empty k)
      rw [List.forall₂_map_left_iff]
      exact (mapM_eq_ok_iff.1 hphrases).imp fun _ _ hk => text_of_phrase hk n
    simp only [Phrase.text_concat_cons, Phrase.text_keyword, Phrase.values_keyword,
      Phrase.text_concat_nil, String.append_empty, List.length_nil, Nat.add_zero, hlist]
    rw [clauseText_eq, if_neg (List.cons_ne_nil first rest)]

end SortKey

/-! ## Locks -/

namespace RowLock

/-- A lock in the caller's words. -/
def textOf (mode : LockMode) (tables : List String) (policy : WaitPolicy) : String :=
  joined " " [modeText mode, led "OF " (", ".intercalate tables), waitText policy]

theorem values_phrase (l : RowLock) : (l.phrase : Phrase α).values = [] := by
  rw [← map_phrase Empty.elim]
  exact Phrase.values_closed _ _

/-- Names that are all identifiers are written as they are. -/
theorem sql_parseTables {names : List String} (h : nameFaults names = []) :
    (parseTables names).1.map Identifier.sql = names := by
  induction names with
  | nil => rfl
  | cons name rest ih =>
    rw [nameFaults, List.flatMap_cons, ← nameFaults, List.append_eq_nil_iff] at h
    cases hname : Identifier.parse name with
    | error fault => simp [hname, faultOf] at h
    | ok x =>
      have hfirst : (parseTables (name :: rest)).1 = x :: (parseTables rest).1 := by
        simp [parseTables, hname, Except.toOption]
      rw [hfirst, List.map_cons, ih h.2, Identifier.sql_of_parse hname]

theorem text_phrase {tables : List String} (h : nameFaults tables = []) (mode : LockMode)
    (policy : WaitPolicy) (n : Nat) :
    (phrase ⟨mode, (parseTables tables).1, policy⟩ : Phrase α).text n =
      textOf mode tables policy := by
  rw [phrase, Phrase.spaced, Phrase.text_seq_closed (by simp [Phrase.values_keyword,
    Phrase.values_ledBy, Phrase.values_names])]
  simp only [List.map_cons, List.map_nil, Phrase.text_keyword, Phrase.text_ledBy,
    Phrase.text_names, sql_parseTables h]
  rfl

end RowLock

end ParamSql
