import ParamSql.Proofs.Comment.Insert
import ParamSql.Proofs.OrderedMap

/-!
# The comment that stands for a rejected statement

In place of the text of a rejected statement stands a comment with the wording of the rejection. The
wording shows names, words of order and templates as the caller gave them, so the comment ends where
it should exactly if the marks of comments in these texts are balanced. A text that closes the
comment leaves what follows to be read as SQL, and one that opens another leaves both open.

Results:
* `Statement.isComment_sql_iff`: when the text of a rejected statement is one comment.
* `Recipe.givenIn_texts`: the texts that decide it are texts of the caller.
* `Recipe.sql_commented`: it is one comment if none of the caller's texts has a mark of a comment.
* `Recipe.comment_closedEarly`: a name that closes the comment.
-/

namespace ParamSql

variable {α : Type}

open Predicate.Call (allTexts)
open Comment (HasMark IsComment Balanced behind marksIn isComment_iff)

/-! ## SELECT -/

namespace Select

/-- The texts of a call that can be shown: names, words of order and templates. -/
def Call.texts : Call α → List String
  | .columns names => names
  | .join _ table on => on.names table
  | .order keys => keys.flatMap SortKey.texts
  | .lock _ tables _ => tables
  | .filter call => call.texts
  | _ => []

theorem givenIn_faults (call : Call α) :
    GivenIn call.texts (call.faults.flatMap Identifier.Fault.texts) := by
  cases call with
  | columns names => exact givenIn_entryFaults names
  | join kind table on => exact givenIn_nameFaults _
  | lock mode tables policy => exact givenIn_nameFaults tables
  | projections entries => exact .nil
  | order keys => exact .nil
  | limit n => exact .nil
  | offset n => exact .nil
  | filter call => exact .nil

theorem allTexts_filters (calls : List (Call α)) :
    allTexts (calls.filterMap Call.filter?) ⊆ calls.flatMap Call.texts := by
  refine allTexts_filterMap (fun call filter h => ?_) calls
  cases call <;> cases h
  exact List.Subset.refl _

theorem givenIn_sortKeys (calls : List (Call α)) : GivenIn (calls.flatMap Call.texts)
    (shownBy ((calls.flatMap Call.keys).flatMap SortKey.rejections)) := by
  rw [shownBy_flatMap, List.flatMap_assoc]
  refine GivenIn.flatMap fun call _ => ?_
  cases call with
  | order keys => exact GivenIn.flatMap fun k _ => k.givenIn_rejections
  | columns names => exact .nil
  | projections entries => exact .nil
  | join kind table on => exact .nil
  | limit n => exact .nil
  | offset n => exact .nil
  | lock mode tables policy => exact .nil
  | filter call => exact .nil

theorem givenIn_rejections (table : String) (calls : List (Call α)) :
    GivenIn (table :: calls.flatMap Call.texts) (shownBy (rejections table calls)) := by
  rw [rejections, shownBy_append, shownBy_append]
  have hfilters := (givenIn_recordedFilters _).mono (allTexts_filters calls)
  exact (givenIn_named givenIn_faults table calls).append (hfilters.cons table) |>.append
    ((givenIn_sortKeys calls).cons table)

end Select

theorem Count.givenIn_rejections (table : String) (calls : List (Select.Call α))
    (filters : List (Predicate.Call α)) :
    GivenIn (table :: calls.flatMap Select.Call.texts ++ allTexts filters)
      (shownBy (rejections table calls filters)) := by
  rw [rejections, shownBy_append]
  have hnames := givenIn_named Select.givenIn_faults table calls
  refine (hnames.mono (List.subset_append_left _ _)).append ((givenIn_recordedFilters _).mono ?_)
  rw [Predicate.Call.allTexts_eq, List.flatMap_append, ← Predicate.Call.allTexts_eq,
    ← Predicate.Call.allTexts_eq]
  refine List.append_subset.2 ⟨fun t ht => ?_, List.subset_append_right _ _⟩
  exact List.mem_append_left _ (List.mem_cons_of_mem _ (Select.allTexts_filters calls ht))

/-! ## UPDATE and DELETE -/

namespace Delete

/-- The texts of a call that can be shown: names and templates. -/
def Call.texts : Call α → List String
  | .returning names => names
  | .filter call => call.texts

theorem givenIn_faults (call : Call α) :
    GivenIn call.texts (call.faults.flatMap Identifier.Fault.texts) := by
  cases call with
  | returning names => exact givenIn_entryFaults names
  | filter call => exact .nil

theorem allTexts_filters (calls : List (Call α)) :
    allTexts (calls.filterMap Call.filter?) ⊆ calls.flatMap Call.texts := by
  refine allTexts_filterMap (fun call filter h => ?_) calls
  cases call <;> cases h
  exact List.Subset.refl _

theorem givenIn_rejections (table : String) (calls : List (Call α)) :
    GivenIn (table :: calls.flatMap Call.texts) (shownBy (rejections table calls)) := by
  rw [rejections, shownBy_append]
  have hconditions := (givenIn_conditionRejections _).mono (allTexts_filters calls)
  exact (givenIn_named givenIn_faults table calls).append (hconditions.cons table)

end Delete

namespace Update

/-- The texts of a call that can be shown: names and templates. -/
def Call.texts : Call α → List String
  | .set column _ => [column]
  | .setAll columns => columns.keys
  | .filter call => call.texts
  | .returning names => names

theorem givenIn_faults (call : Call α) :
    GivenIn call.texts (call.faults.flatMap Identifier.Fault.texts) := by
  cases call with
  | returning names => exact givenIn_entryFaults names
  | set column assigned => exact .nil
  | setAll columns => exact .nil
  | filter call => exact .nil

theorem allTexts_filters (calls : List (Call α)) :
    allTexts (calls.filterMap Call.filter?) ⊆ calls.flatMap Call.texts := by
  refine allTexts_filterMap (fun call filter h => ?_) calls
  cases call <;> cases h
  exact List.Subset.refl _

theorem columnsSet_subset (calls : List (Call α)) :
    columnsSet calls ⊆ calls.flatMap Call.texts := by
  intro name hname
  rw [columnsSet, OrderedMap.keys_ofList, List.mem_eraseDups, List.map_flatMap] at hname
  obtain ⟨call, hcall, hname⟩ := List.mem_flatMap.1 hname
  refine List.mem_flatMap.2 ⟨call, hcall, ?_⟩
  cases call with
  | set column assigned => exact hname
  | setAll columns => simpa [Call.sets, Call.texts, OrderedMap.keys] using hname
  | filter call => cases hname
  | returning names => cases hname

theorem givenIn_setRejections (columns : List String) :
    GivenIn columns (shownBy (setRejections columns)) := by
  unfold setRejections
  split
  · exact .nil
  · exact givenIn_nameRejections columns

theorem givenIn_rejections (table : String) (calls : List (Call α)) :
    GivenIn (table :: calls.flatMap Call.texts) (shownBy (rejections table calls)) := by
  rw [rejections, shownBy_append, shownBy_append]
  have hset := (givenIn_setRejections _).mono (columnsSet_subset calls)
  have hconditions := (givenIn_conditionRejections _).mono (allTexts_filters calls)
  exact (givenIn_named givenIn_faults table calls).append (hset.cons table) |>.append
    (hconditions.cons table)

end Update

/-! ## Statements -/

namespace Recipe

/-- The texts that a caller passes as names, words of order and templates. -/
def texts : Recipe α → List String
  | .select table calls => table :: calls.flatMap Select.Call.texts
  | .count table calls filters => table :: calls.flatMap Select.Call.texts ++ allTexts filters
  | .insert table calls => table :: calls.flatMap Insert.Call.texts
  | .update table calls => table :: calls.flatMap Update.Call.texts
  | .delete table calls => table :: calls.flatMap Delete.Call.texts

theorem givenIn_rejections (r : Recipe α) : GivenIn r.texts (shownBy r.rejections) := by
  cases r with
  | select table calls => exact Select.givenIn_rejections table calls
  | count table calls filters => exact Count.givenIn_rejections table calls filters
  | insert table calls => exact Insert.givenIn_rejections table calls
  | update table calls => exact Update.givenIn_rejections table calls
  | delete table calls => exact Delete.givenIn_rejections table calls

/-- The rejection of a statement shows nothing but what its caller passed. -/
theorem givenIn_texts {r : Recipe α} {cause : Rejection}
    (h : r.statement.compile = .error cause) : GivenIn r.texts cause.texts := by
  have hfirst := ((r.reports_phrase.map Phrase.query).error_iff cause).1 h
  have hmem : cause ∈ r.rejections := List.mem_of_head? hfirst
  exact fun t ht => r.givenIn_rejections t (List.mem_flatMap.2 ⟨cause, hmem, ht⟩)

end Recipe

/-! ## The comment -/

namespace Statement

variable {s : Statement α} {cause : Rejection}

theorem sql_of_error (h : s.compile = .error cause) :
    s.sql = "/* Validation error: " ++ cause.message ++ " */" := by
  have hmessage : (Error.validation cause).message = "Validation error: " ++ cause.message := rfl
  rw [sql, h]
  show "/* " ++ (Error.validation cause).message ++ " */" = _
  rw [hmessage, ← String.append_assoc]
  rfl

/-- The text of a rejected statement is one comment exactly if the marks in the texts that its
wording shows are balanced. -/
theorem isComment_sql_iff (h : s.compile = .error cause) :
    IsComment s.sql.toList ↔ Balanced (cause.texts.flatMap marksIn) := by
  have htext : s.sql.toList =
      '/' :: '*' :: ' ' :: (("Validation error: " ++ cause.message).toList ++ [' ', '*', '/']) := by
    rw [sql_of_error h]
    simp
  have hmarks : marksIn ("Validation error: " ++ cause.message) =
      cause.texts.flatMap marksIn := by
    rw [Comment.marksIn_own_append (by decide), cause.marks_message]
  rw [htext, isComment_iff, ← hmarks, marksIn]

-- A name that opens a comment leaves both open.
example : behind 0 ((select (Select.ofTable "film /*" : Select Nat)).sql.toList.drop 2) = none := by
  decide +kernel

end Statement

namespace Recipe

/-- The text of a rejected statement is the wording of the rejection between the marks of a comment.
It is one comment exactly if the marks in the texts that the wording shows are balanced. These are
texts of the caller, so it is one comment if none of the caller's texts has a mark. -/
theorem sql_commented (r : Recipe α) {cause : Rejection}
    (h : r.statement.compile = .error cause) :
    r.statement.sql = "/* Validation error: " ++ cause.message ++ " */" ∧
      (IsComment r.statement.sql.toList ↔ Balanced (cause.texts.flatMap marksIn)) ∧
      GivenIn r.texts cause.texts ∧
      ((∀ given ∈ r.texts, ¬ HasMark given.toList) → IsComment r.statement.sql.toList) := by
  have hiff := Statement.isComment_sql_iff h
  have hgiven := givenIn_texts h
  refine ⟨Statement.sql_of_error h, hiff, hgiven, fun hmarks => hiff.2 ?_⟩
  rw [hgiven.marksIn_eq_nil hmarks]
  decide

/-- A SELECT in an order that there is not; the text of its condition is not shown. -/
def orderedFilms (direction : String) : Recipe Nat :=
  .select "film" [.filter (.raw .and "length > 60 /* minutes"), .order [⟨"title", direction, none⟩]]

theorem sql_commented_orderedFilms :
    (orderedFilms "SIDEWAYS").statement.compile = .error (.sortDirection "SIDEWAYS" "title") ∧
      IsComment (orderedFilms "SIDEWAYS").statement.sql.toList ∧
      (orderedFilms "/* not */ UP").statement.compile =
        .error (.sortDirection "/* not */ UP" "title") ∧
      IsComment (orderedFilms "/* not */ UP").statement.sql.toList := by
  have hsideways : (orderedFilms "SIDEWAYS").statement.compile =
      .error (.sortDirection "SIDEWAYS" "title") := by decide +kernel
  have hup : (orderedFilms "/* not */ UP").statement.compile =
      .error (.sortDirection "/* not */ UP" "title") := by decide +kernel
  exact ⟨hsideways, (sql_commented _ hsideways).2.2.2 (by decide +kernel),
    hup, (sql_commented _ hup).2.1.2 (by decide +kernel)⟩

/-- A statement whose table has a name that closes the comment. -/
def closingName : Recipe Nat := .select "film */ DELETE FROM film; --" []

/-- A name that is refused can close the comment, and the rest of it is read as SQL. -/
theorem comment_closedEarly :
    closingName.statement.compile =
        .error (.identifier (.badCharacter ' ' "film */ DELETE FROM film; --")) ∧
      behind 0 (closingName.statement.sql.toList.drop 2) =
        some " DELETE FROM film; --' */".toList ∧
      ¬ IsComment closingName.statement.sql.toList := by
  have hcompile : closingName.statement.compile =
      .error (.identifier (.badCharacter ' ' "film */ DELETE FROM film; --")) := by decide +kernel
  refine ⟨hcompile, by decide +kernel, fun hcomment => ?_⟩
  exact absurd ((Statement.isComment_sql_iff hcompile).1 hcomment) (by decide +kernel)

end Recipe

end ParamSql
