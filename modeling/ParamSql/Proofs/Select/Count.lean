import ParamSql.Proofs.Select.Clauses

/-!
# COUNT counts what the SELECT selects

A SELECT COUNT(*) is made of the part from FROM to WHERE of the SELECT that it comes from, with the
same placeholders, and is rejected for the same causes but for those of an order. It makes no
difference whether filters come before or after the statement is turned into a count.

Results:
* `phrase_source`: a SELECT COUNT(*) that compiles.
* `ofCalls_filters`: filters of a count are filters of its SELECT.
* `counts_selected`: a SELECT and its count side by side.
-/

namespace ParamSql

variable {α : Type}

open Select (columnsText sourceTexts laterTexts lastLimit lastOffset clauseTexts)
open Text (joined behind)

/-- The part from FROM to WHERE; `own` is the predicate on its own. -/
def Select.sourceText (table : String) (calls : List (Select.Call α)) (own : Query α) : String :=
  joined " " (sourceTexts table calls own)

theorem Select.behind_source (table : String) (calls : List (Select.Call α)) (own : Query α) :
    behind " " (sourceTexts table calls own) = " " ++ sourceText table calls own := by
  have hsource : sourceText table calls own ≠ "" := Text.joined_ne_empty (by simp) _
  rw [← Text.behind_joined, ← sourceText, Text.behind_cons hsource]
  exact String.append_empty

/-- The text of a SELECT around its source. -/
theorem Select.joined_clauseTexts (table : String) (calls : List (Select.Call α)) (own : Query α) :
    joined " " (clauseTexts table calls own) =
      "SELECT " ++ columnsText calls ++ " " ++ sourceText table calls own ++
        behind " " (laterTexts calls own.values.length) := by
  rw [clauseTexts, Text.joined_cons (by simp), Text.behind_append, behind_source]
  simp only [String.append_assoc]

namespace Count

theorem phrase_source {table : String} {calls : List (Select.Call α)} {p : Phrase α}
    (h : (ofCalls table calls []).phrase = .ok p) :
    ∃ own, (Predicate.ofCalls (calls.filterMap Select.Call.filter?)).compile = .ok own ∧
      p.query = ⟨"SELECT COUNT(*) " ++ Select.sourceText table calls own.query,
        own.query.values⟩ := by
  have hnone := (reports_phrase table calls []).ok_iff.1 ⟨p, h⟩
  simp only [rejections, List.append_eq_nil_iff, recordedNames, List.map_eq_nil_iff] at hnone
  obtain ⟨-, -, h⟩ := bind_eq_ok_iff.1 h
  obtain ⟨source, hsource, h⟩ := bind_eq_ok_iff.1 h
  cases h
  obtain ⟨own, hown, htext, hvalues⟩ := Select.text_source hnone.1.1 hsource
  refine ⟨own, hown, ?_⟩
  rw [Phrase.query_text, own.query_text]
  congr 1
  · rw [Phrase.spaced, Phrase.text_seq]
    simp only [Phrase.texts, Phrase.text_keyword, Phrase.values_keyword, htext, List.length_nil]
    rw [Text.joined_cons (by decide), Text.behind_joined, Select.behind_source, own.query_text]
    rfl
  · simp [Phrase.values_spaced, Phrase.values_keyword, hvalues]

/-- Filters after the statement is turned into a count are filters before. -/
theorem ofCalls_filters (table : String) (calls : List (Select.Call α))
    (filters : List (Predicate.Call α)) :
    ofCalls table calls filters = ofCalls table (calls ++ filters.map .filter) [] := by
  have hfold (s : Select α) : filters.foldl addFilter s.count =
      ((filters.map Select.Call.filter).foldl Select.apply s).count := by
    induction filters generalizing s with
    | nil => rfl
    | cons call rest ih => exact ih (s.addFilter call)
  rw [ofCalls, hfold, ofCalls, Select.ofCalls, Select.ofCalls, List.foldl_append]
  rfl

/-- A count has the source of its SELECT, with the same placeholders and the values without the
numbers of rows; it is rejected as its SELECT is, but for an order that is none; and its filters can
stand before or after the statement is turned into a count. -/
theorem counts_selected (table : String) (calls : List (Select.Call α)) :
    (∀ query, (Statement.select (.ofCalls table calls)).compile = .ok query →
      ∃ own, (Predicate.ofCalls (calls.filterMap Select.Call.filter?)).compile.map Phrase.query =
          .ok own ∧
        query = ⟨"SELECT " ++ columnsText calls ++ " " ++ Select.sourceText table calls own ++
            behind " " (laterTexts calls own.values.length),
          own.values ++ (lastLimit calls).toList ++ (lastOffset calls).toList⟩ ∧
        (Statement.count (.ofCalls table calls [])).compile =
          .ok ⟨"SELECT COUNT(*) " ++ Select.sourceText table calls own, own.values⟩) ∧
    (∀ cause, (Statement.select (.ofCalls table calls)).compile = .error cause ↔
      (Statement.count (.ofCalls table calls [])).compile = .error cause ∨
        (∃ query, (Statement.count (.ofCalls table calls [])).compile = .ok query) ∧
          ((calls.flatMap Select.Call.keys).flatMap SortKey.rejections).head? = some cause) ∧
    ∀ filters, (Statement.count (.ofCalls table calls filters)).compile =
      (Statement.count (.ofCalls table (calls ++ filters.map .filter) [])).compile := by
  have hcount := reports_phrase table calls []
  have hselect := Select.reports_phrase table calls
  have hmore : Select.rejections table calls = rejections table calls [] ++
      (calls.flatMap Select.Call.keys).flatMap SortKey.rejections := by
    rw [rejections, List.append_nil]
    rfl
  refine ⟨fun query h => ?_, fun cause => ?_, fun filters => ?_⟩
  · obtain ⟨p, hp, rfl⟩ := map_eq_ok_iff.1 h
    obtain ⟨own, hown, hquery⟩ := Select.phrase_clauses hp
    have hnone := hselect.ok_iff.1 ⟨p, hp⟩
    rw [hmore, List.append_eq_nil_iff] at hnone
    obtain ⟨counted, hcounted⟩ := hcount.ok_iff.2 hnone.1
    obtain ⟨own', hown', hsource⟩ := phrase_source hcounted
    -- Both statements compile the same predicate.
    obtain rfl : own = own' := Except.ok.inj (hown.symm.trans hown')
    refine ⟨own.query, map_eq_ok_iff.2 ⟨own, hown, rfl⟩, ?_, ?_⟩
    · rw [hquery, Select.joined_clauseTexts]
    · exact map_eq_ok_iff.2 ⟨counted, hcounted, hsource⟩
  · rw [hmore] at hselect
    exact (hcount.map Phrase.query).error_append_iff (hselect.map Phrase.query) cause
  · rw [ofCalls_filters]

/-- The count of a SELECT with calls on all clauses. -/
def filmCount : Query Nat where
  sql := "SELECT COUNT(*) FROM film LEFT JOIN film_actor ON fa.id = film.id " ++
    "INNER JOIN actor ON TRUE WHERE rating = $1"
  values := [7]

theorem counts_filmCalls :
    (Statement.select (.ofCalls "film" Select.filmCalls)).compile = .ok Select.filmQuery ∧
      (Statement.count (.ofCalls "film" Select.filmCalls [])).compile = .ok filmCount := by
  have hc : (Statement.select (.ofCalls "film" Select.filmCalls)).compile =
      .ok Select.filmQuery := by decide +kernel
  obtain ⟨own, hown, -, hcount⟩ := (counts_selected "film" Select.filmCalls).1 _ hc
  have hrating : own = ⟨"rating = $1", [7]⟩ := Except.ok.inj (hown.symm.trans (by decide +kernel))
  rw [hrating] at hcount
  exact ⟨hc, hcount.trans (by decide +kernel)⟩

end Count

end ParamSql
