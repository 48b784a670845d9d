import ParamSql.Proofs.Rejections.Statements
import ParamSql.Proofs.Select.Texts
import ParamSql.Proofs.Values.Statements

/-!
# The clauses of a SELECT

A SELECT that compiles is written clause by clause in the order of the language, with single spaces
between the clauses that have text. Every clause is found from the calls that touch it, whatever
other calls stand between them, so that calls on different clauses can be exchanged.

Results:
* `ofCalls_eq_of_clauses`: a statement depends on the calls of each clause alone.
* `text_source`: the part from FROM to WHERE.
* `compile_clauses`: the whole statement.
-/

namespace ParamSql.Select

variable {α : Type}

open Text (joined behind led)

/-! ## Calls clause by clause -/

/-- The clauses that calls touch. -/
inductive Clause where
  | columns
  | joins
  | filters
  | order
  | limit
  | offset
  | locks
  deriving DecidableEq, Repr

/-- The clause that a call touches. -/
def Call.clause : Call α → Clause
  | .columns _ => .columns
  | .projections _ => .columns
  | .join _ _ _ => .joins
  | .order _ => .order
  | .limit _ => .limit
  | .offset _ => .offset
  | .lock _ _ _ => .locks
  | .filter _ => .filters

/-- A call brings nothing to the clauses that it does not touch. -/
structure Call.Touches (call : Call α) : Prop where
  columns : call.clause ≠ .columns → call.entries = []
  joins : call.clause ≠ .joins → call.joins = []
  filters : call.clause ≠ .filters → call.filter? = none
  order : call.clause ≠ .order → call.keys = []
  limit : call.clause ≠ .limit → call.limit? = none
  offset : call.clause ≠ .offset → call.offset? = none
  locks : call.clause ≠ .locks → call.locks = []

theorem Call.touches (call : Call α) : call.Touches := by
  cases call <;> constructor <;> simp [clause, entries, joins, filter?, keys, limit?, offset?, locks]

/-- The calls on a clause, in order. -/
def callsOn (clause : Clause) (calls : List (Call α)) : List (Call α) :=
  calls.filter (·.clause = clause)

/-- Two sequences of calls have the same calls on every clause. -/
def SameClauses (calls calls' : List (Call α)) : Prop :=
  ∀ clause, callsOn clause calls = callsOn clause calls'

theorem flatMap_callsOn {β : Type} {f : Call α → List β} {clause : Clause}
    (h : ∀ call, call.clause ≠ clause → f call = []) (calls : List (Call α)) :
    (callsOn clause calls).flatMap f = calls.flatMap f :=
  flatMap_filter_of_nil (fun call hcall => h call (of_decide_eq_false hcall)) calls

namespace SameClauses

variable {calls calls' : List (Call α)} (h : SameClauses calls calls')

include h

theorem flatMap_eq {β : Type} {f : Call α → List β} (clause : Clause)
    (hf : ∀ call, call.clause ≠ clause → f call = []) : calls.flatMap f = calls'.flatMap f := by
  rw [← flatMap_callsOn hf, h clause, flatMap_callsOn hf]

theorem filterMap_eq {β : Type} {f : Call α → Option β} (clause : Clause)
    (hf : ∀ call, call.clause ≠ clause → f call = none) :
    calls.filterMap f = calls'.filterMap f := by
  rw [List.filterMap_eq_flatMap_toList, List.filterMap_eq_flatMap_toList]
  exact h.flatMap_eq clause fun call hcall => by rw [hf call hcall]; rfl

theorem mem_iff (call : Call α) : call ∈ calls ↔ call ∈ calls' := by
  have hself (cs : List (Call α)) : call ∈ callsOn call.clause cs ↔ call ∈ cs := by
    simp [callsOn]
  rw [← hself, h, hself]

end SameClauses

/-- What calls leave in a statement. -/
theorem ofCalls_eq (table : String) (calls : List (Call α)) : ofCalls table calls =
    { table
      columns := calls.flatMap Call.entries
      joins := calls.flatMap Call.joins
      predicate := Predicate.ofCalls (calls.filterMap Call.filter?)
      order := calls.flatMap Call.keys
      limit := (calls.filterMap Call.limit?).getLast?
      offset := (calls.filterMap Call.offset?).getLast?
      locks := calls.flatMap Call.locks
      fault := (calls.flatMap Call.faults).head? } :=
  Select.ext (table_ofCalls table calls) (columns_ofCalls table calls) (joins_ofCalls table calls)
    (predicate_ofCalls table calls) (order_ofCalls table calls) (limit_ofCalls table calls)
    (offset_ofCalls table calls) (locks_ofCalls table calls) (fault_eq table calls)

/-- Without faults, a statement depends on the calls of each clause alone. -/
theorem ofCalls_eq_of_clauses {calls calls' : List (Call α)} (h : SameClauses calls calls')
    (hfaults : calls'.flatMap Call.faults = []) (table : String) :
    ofCalls table calls = ofCalls table calls' := by
  have hnone : calls.flatMap Call.faults = [] := by
    rw [List.flatMap_eq_nil_iff] at hfaults ⊢
    exact fun call hcall => hfaults call ((h.mem_iff call).1 hcall)
  rw [ofCalls_eq, ofCalls_eq, hfaults, hnone,
    h.flatMap_eq .columns fun call => call.touches.columns,
    h.flatMap_eq .joins fun call => call.touches.joins,
    h.filterMap_eq .filters fun call => call.touches.filters,
    h.flatMap_eq .order fun call => call.touches.order,
    h.filterMap_eq .limit fun call => call.touches.limit,
    h.filterMap_eq .offset fun call => call.touches.offset,
    h.flatMap_eq .locks fun call => call.touches.locks]

/-! ## The texts of the clauses -/

/-- The text of the join that a call brings. -/
def Call.joinText? : Call α → Option String
  | .join kind table on => some (Join.textOf kind table on)
  | _ => none

/-- The text of the lock that a call brings. -/
def Call.lockText? : Call α → Option String
  | .lock mode tables policy => some (RowLock.textOf mode tables policy)
  | _ => none

/-- The number of rows: the one that was set last. -/
def lastLimit (calls : List (Call α)) : Option α := (calls.filterMap Call.limit?).getLast?

/-- The number of rows to pass over: the one that was set last. -/
def lastOffset (calls : List (Call α)) : Option α := (calls.filterMap Call.offset?).getLast?

/-- A keyword with the placeholder of a value, if there is one; `n` values are bound before it. -/
def boundText (keyword : String) (n : Nat) : Option α → String
  | some _ => keyword ++ "$" ++ toString (n + 1)
  | none => ""

/-- The column list. -/
def columnsText (calls : List (Call α)) : String :=
  Projection.listText (calls.flatMap Call.entries)

/-- The clauses from FROM to WHERE; `own` is the predicate on its own. -/
def sourceTexts (table : String) (calls : List (Call α)) (own : Query α) : List String :=
  ("FROM " ++ table) :: (calls.filterMap Call.joinText? ++ [led "WHERE " own.sql])

/-- The clauses behind WHERE; `n` values are bound before them. -/
def laterTexts (calls : List (Call α)) (n : Nat) : List String :=
  [SortKey.clauseText (calls.flatMap Call.keys), boundText "LIMIT " n (lastLimit calls),
    boundText "OFFSET " (n + (lastLimit calls).toList.length) (lastOffset calls)] ++
    calls.filterMap Call.lockText?

/-- All clauses. -/
def clauseTexts (table : String) (calls : List (Call α)) (own : Query α) : List String :=
  ("SELECT " ++ columnsText calls) ::
    (sourceTexts table calls own ++ laterTexts calls own.values.length)

theorem text_bound (keyword : String) (n : Nat) (v : Option α) :
    (bound keyword v).text n = boundText keyword n v := by
  cases v with
  | none => exact Phrase.text_keyword n ""
  | some v => simp [bound, boundText, Phrase.values_keyword, String.append_assoc]

/-- What calls bring, item by item, is written call by call. -/
theorem texts_calls {β : Type} {items : Call α → List β} {phrase : β → Phrase α}
    {text? : Call α → Option String} (hvalues : ∀ b, (phrase b).values = []) {n : Nat}
    {calls : List (Call α)}
    (h : ∀ call ∈ calls, (items call).map (fun b => (phrase b).text n) = (text? call).toList) :
    Phrase.texts n ((calls.flatMap items).map phrase) = calls.filterMap text? := by
  rw [Phrase.texts_closed (List.forall_mem_map.2 fun b _ => hvalues b), List.map_map,
    List.map_flatMap, List.filterMap_eq_flatMap_toList]
  exact List.flatMap_congr h

theorem texts_joins {calls : List (Call α)} (h : calls.flatMap Call.faults = []) (n : Nat) :
    Phrase.texts n ((calls.flatMap Call.joins).map (Join.phrase (α := α))) =
      calls.filterMap Call.joinText? := by
  refine texts_calls Join.values_phrase fun call hcall => ?_
  have hfaults := List.flatMap_eq_nil_iff.1 h call hcall
  cases call with
  | join kind table on =>
    obtain ⟨j, hj⟩ := (Join.reports_parse kind table on).ok_iff.2 hfaults
    rw [Call.joins, hj]
    exact congrArg (fun t => [t]) (Join.text_of_parse hj n)
  | _ => rfl

theorem texts_locks {calls : List (Call α)} (h : calls.flatMap Call.faults = []) (n : Nat) :
    Phrase.texts n ((calls.flatMap Call.locks).map (RowLock.phrase (α := α))) =
      calls.filterMap Call.lockText? := by
  refine texts_calls RowLock.values_phrase fun call hcall => ?_
  have hfaults := List.flatMap_eq_nil_iff.1 h call hcall
  cases call with
  | lock mode tables policy =>
    exact congrArg (fun t => [t]) (RowLock.text_phrase hfaults mode policy n)
  | _ => rfl

/-- A statement that compiles has calls without faults. -/
theorem faults_eq_nil {table : String} {calls : List (Call α)} {p : Phrase α}
    (h : (ofCalls table calls).phrase = .ok p) : calls.flatMap Call.faults = [] := by
  have hnone := (reports_phrase table calls).ok_iff.1 ⟨p, h⟩
  simp only [rejections, List.append_eq_nil_iff, recordedNames, List.map_eq_nil_iff] at hnone
  exact hnone.1.1.1

theorem text_source {table : String} {calls : List (Call α)} {p : Phrase α}
    (hfaults : calls.flatMap Call.faults = []) (h : (ofCalls table calls).source = .ok p) :
    ∃ own, (Predicate.ofCalls (calls.filterMap Call.filter?)).compile = .ok own ∧
      p.text 0 = joined " " (sourceTexts table calls own.query) ∧ p.values = own.values := by
  rw [ofCalls_eq] at h
  obtain ⟨x, hx, h⟩ := bind_eq_ok_iff.1 h
  obtain ⟨condition, hcondition, h⟩ := bind_eq_ok_iff.1 h
  obtain ⟨own, hown, rfl⟩ := Predicate.whereClause_eq_ok_iff.1 hcondition
  cases h
  have hname : x.sql = table := Identifier.sql_of_parse (mapError_eq_ok_iff.1 hx)
  have htable : table ≠ "" := hname ▸ x.sql_ne_empty
  refine ⟨own, hown, ?_, ?_⟩
  · rw [Phrase.spaced, Phrase.text_seq]
    simp only [Phrase.texts, Phrase.text_keyword, Phrase.text_name, Phrase.values_keyword,
      Phrase.values_name, Join.values_clause, hname, Phrase.text_ledBy, List.length_nil]
    rw [Join.clause, Phrase.spaced, Phrase.text_seq, texts_joins hfaults, sourceTexts,
      Phrase.query_text, Text.joined_pair (by decide) htable]
    exact Text.joined_nested (by simp) [] _ _
  · simp [Phrase.values_spaced, Phrase.values_keyword, Phrase.values_ledBy]

/-- The clauses of a statement with the source and the locks, which are sequences of their own. -/
theorem joined_clauses {columns : String} (h : columns ≠ "") (source later locks : List String) :
    joined " " ("SELECT" :: columns :: joined " " source :: (later ++ [joined " " locks])) =
      joined " " (("SELECT " ++ columns) :: (source ++ (later ++ locks))) := by
  have hselect : "SELECT" ++ " " ++ columns ≠ "" := by simp
  calc joined " " ("SELECT" :: columns :: joined " " source :: (later ++ [joined " " locks]))
      _ = joined " " (("SELECT" ++ " " ++ columns) :: joined " " source ::
          (later ++ [joined " " locks])) := Text.joined_pair (by decide) h _
      _ = joined " " (("SELECT" ++ " " ++ columns) :: (source ++ (later ++ [joined " " locks]))) :=
        Text.joined_nested hselect [] source _
      _ = joined " " (("SELECT" ++ " " ++ columns) :: (source ++ later ++ [joined " " locks])) := by
        rw [List.append_assoc]
      _ = joined " " (("SELECT" ++ " " ++ columns) :: (source ++ later ++ locks ++ [])) :=
        Text.joined_nested hselect (source ++ later) locks []
      _ = joined " " (("SELECT " ++ columns) :: (source ++ (later ++ locks))) := by
        rw [List.append_nil, List.append_assoc]
        rfl

theorem phrase_clauses {table : String} {calls : List (Call α)} {p : Phrase α}
    (h : (ofCalls table calls).phrase = .ok p) :
    ∃ own, (Predicate.ofCalls (calls.filterMap Call.filter?)).compile = .ok own ∧
      p.query = ⟨joined " " (clauseTexts table calls own.query),
        own.query.values ++ (lastLimit calls).toList ++ (lastOffset calls).toList⟩ := by
  have hfaults := faults_eq_nil h
  obtain ⟨-, -, h⟩ := bind_eq_ok_iff.1 h
  obtain ⟨source, hsource, h⟩ := bind_eq_ok_iff.1 h
  obtain ⟨order, horder, h⟩ := bind_eq_ok_iff.1 h
  cases h
  obtain ⟨own, hown, htext, hvalues⟩ := text_source hfaults hsource
  rw [ofCalls_eq] at horder
  have hcolumns : columnsText calls ≠ "" := Projection.listText_ne_empty _
  refine ⟨own, hown, ?_⟩
  rw [Phrase.query_text, ofCalls_eq]
  congr 1
  · -- No clause in front of the predicate binds a value, so that it is numbered as on its own.
    rw [Phrase.spaced, Phrase.text_seq]
    simp only [Phrase.texts, Phrase.text_keyword, Projection.text_selection, Phrase.values_keyword,
      Projection.values_selection, htext, hvalues, SortKey.text_clause horder,
      SortKey.values_clause horder, text_bound, values_boundTo, List.length_nil, Nat.zero_add,
      Nat.add_zero]
    rw [RowLock.clause, Phrase.spaced, Phrase.text_seq, texts_locks hfaults, own.query_text]
    exact joined_clauses hcolumns _ [_, _, _] _
  · simp [Phrase.values_spaced, Phrase.values_keyword, hvalues, SortKey.values_clause horder,
      values_boundTo, lastLimit, lastOffset, own.query_text]

/-- Calls on all clauses, some of them more than once. -/
def filmCalls : List (Call Nat) :=
  [.lock .update ["film"] .noWait, .limit 5, .join .left "film_actor" (.columns "fa.id" "film.id"),
    .order [.desc "title"], .filter (.equal .and (.text "rating") 7), .columns ["title"],
    .lock .share [] .skipLocked, .offset 20, .limit 10, .join .inner "actor" (.raw "TRUE"),
    .order [⟨"film.id", "asc", some "last"⟩], .columns ["film.*"]]

/-- The same calls clause by clause, the last clause first. -/
def filmCallsByClause : List (Call Nat) :=
  [.lock .update ["film"] .noWait, .lock .share [] .skipLocked, .offset 20, .limit 5, .limit 10,
    .order [.desc "title"], .order [⟨"film.id", "asc", some "last"⟩],
    .filter (.equal .and (.text "rating") 7),
    .join .left "film_actor" (.columns "fa.id" "film.id"), .join .inner "actor" (.raw "TRUE"),
    .columns ["title"], .columns ["film.*"]]

/-- What both compile to. -/
def filmQuery : Query Nat where
  sql := "SELECT film.*, title FROM film LEFT JOIN film_actor ON fa.id = film.id " ++
    "INNER JOIN actor ON TRUE WHERE rating = $1 ORDER BY title DESC, film.id ASC NULLS LAST " ++
    "LIMIT $2 OFFSET $3 FOR UPDATE OF film NOWAIT FOR SHARE SKIP LOCKED"
  values := [7, 10, 20]

end ParamSql.Select
