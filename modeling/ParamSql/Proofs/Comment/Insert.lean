import ParamSql.Proofs.Catalog.Check
import ParamSql.Proofs.Comment.Given

/-!
# Where the texts of a rejected INSERT come from

The columns are the keys of the first row. A column that is given twice is shown by its last segment
without the quotes around it, which stands in the key with the quotes inside doubled.

Results:
* `Identifier.standsIn_name`: the name of an identifier stands in the text that it is read from.
* `Insert.givenIn_rejections`: all that is wrong with an INSERT.
-/

namespace ParamSql

variable {α : Type}

open Predicate.Call (allTexts)

/-- The name of an identifier stands in the text that it is read from. -/
theorem Identifier.standsIn_name {input : String} {x : Identifier} (h : parse input = .ok x) :
    StandsIn x.name input := by
  have hinput : input.toList = x.chars := by rw [← sql_of_parse h, toList_sql]
  have hbase : x.base.chars <:+: input.toList := by
    rw [hinput]
    rcases x.chars_eq_base with ⟨-, hchars⟩ | ⟨front, -, hchars⟩
    · rw [hchars]
    · rw [hchars]
      exact ((List.suffix_cons _ _).trans (List.suffix_append _ _)).isInfix
  rw [StandsIn, name]
  cases hsegment : x.base with
  | plain n =>
    rw [hsegment] at hbase
    exact .inl hbase
  | quoted n =>
    -- The text has the name between quotes, and its own quotes doubled.
    rw [hsegment] at hbase
    exact .inr (List.IsInfix.trans ⟨['"'], ['"'], rfl⟩ hbase)

namespace Insert

/-- The names of what a conflict is found on. -/
def targetTexts : ConflictTarget → List String
  | .columns names => names
  | .constraint name => [name]

/-- The names of the columns that an update sets. -/
def setTexts : UpdateSet α → List String
  | .inserted => []
  | .columns names => names
  | .values columns => columns.keys

/-- The names of the columns that are set about a conflict. -/
def updatedTexts : ConflictAction α → List String
  | .nothing => []
  | .update set => setTexts set

/-- The texts of a conflict clause that can be shown. -/
def ConflictCall.texts (c : ConflictCall α) : List String :=
  targetTexts c.target ++ allTexts c.merges ++ updatedTexts c.action

/-- The texts of a call that can be shown: names and templates. -/
def Call.texts : Call α → List String
  | .rows added => added.flatMap OrderedMap.keys
  | .returning names => names
  | .conflict target filters action => ConflictCall.texts ⟨target, filters, action⟩

theorem givenIn_faults (call : Call α) :
    GivenIn call.texts (call.faults.flatMap Identifier.Fault.texts) := by
  cases call with
  | returning names => exact givenIn_entryFaults names
  | rows added => exact .nil
  | conflict target filters action => exact .nil

theorem firstKeys_subset (calls : List (Call α)) :
    firstKeys (calls.flatMap Call.added) ⊆ calls.flatMap Call.texts := by
  have hfirst (rows : List (OrderedMap α)) : firstKeys rows ⊆ rows.flatMap OrderedMap.keys := by
    cases rows with
    | nil => exact List.nil_subset _
    | cons row rows => exact List.subset_append_left _ _
  refine List.Subset.trans (hfirst _) ?_
  rw [List.flatMap_assoc]
  intro name hname
  obtain ⟨call, hcall, hname⟩ := List.mem_flatMap.1 hname
  refine List.mem_flatMap.2 ⟨call, hcall, ?_⟩
  cases call with
  | rows added => exact hname
  | returning names => cases hname
  | conflict target filters action => cases hname

theorem givenIn_columnRejection (before : List String) (name : String) :
    GivenIn [name] (shownBy (columnRejection before name)) := by
  unfold columnRejection
  split
  · rename_i fault hread
    intro t ht
    rw [shownBy, List.flatMap_singleton] at ht
    exact ⟨name, List.mem_singleton_self name, .inl (Identifier.isAbout_parse hread t ht)⟩
  · rename_i x hread
    split
    · intro t ht
      obtain rfl : t = x.name := by simpa [shownBy, Rejection.texts] using ht
      exact ⟨name, List.mem_singleton_self name, Identifier.standsIn_name hread⟩
    · exact .nil

theorem givenIn_columnRejections (before names : List String) :
    GivenIn names (shownBy (columnRejections before names)) := by
  induction names generalizing before with
  | nil => exact .nil
  | cons name rest ih =>
    rw [columnRejections, shownBy_append]
    exact (givenIn_columnRejection before name).parts (ih _)

/-- What is wrong with rows is told by their numbers alone. -/
theorem shownBy_rowRejections (rows : List (OrderedMap α)) : shownBy (rowRejections rows) = [] := by
  cases rows with
  | nil => rfl
  | cons first more =>
    rw [rowRejections]
    split
    · split <;> rfl
    · rw [shownBy_flatMap, List.flatMap_eq_nil_iff]
      intro numbered _
      split <;> rfl

theorem givenIn_targetRejections (target : ConflictTarget) :
    GivenIn (targetTexts target) (shownBy (targetRejections target)) := by
  cases target with
  | columns names =>
    rw [targetRejections]
    split
    · exact .nil
    · exact givenIn_nameRejections names
  | constraint name =>
    rw [targetRejections, shownBy, List.flatMap_map]
    exact givenIn_nameFaults [name]

theorem givenIn_updateRejections (inserted : List String) (set : UpdateSet α) :
    GivenIn (setTexts set) (shownBy (updateRejections inserted set)) := by
  cases set with
  | inserted =>
    rw [updateRejections]
    split <;> exact .nil
  | columns names =>
    rw [updateRejections, shownBy_append]
    refine (givenIn_nameRejections names).append ?_
    split <;> exact .nil
  | values columns =>
    rw [updateRejections]
    split
    · exact .nil
    · exact givenIn_nameRejections columns.keys

theorem ConflictCall.givenIn_actionRejections (c : ConflictCall α) (inserted : List String) :
    GivenIn (updatedTexts c.action) (shownBy (c.actionRejections inserted)) := by
  unfold ConflictCall.actionRejections
  cases c.action with
  | nothing =>
    show GivenIn _ (shownBy (if _ then _ else _))
    split <;> exact .nil
  | update set => exact givenIn_updateRejections inserted set

theorem ConflictCall.givenIn_rejections (c : ConflictCall α) (inserted : List String) :
    GivenIn c.texts (shownBy (c.rejections inserted)) := by
  rw [rejections, shownBy_append, shownBy_append]
  exact (givenIn_targetRejections c.target).parts (givenIn_recordedFilters c.merges) |>.parts
    (c.givenIn_actionRejections inserted)

theorem givenIn_lastConflict (calls : List (Call α)) (inserted : List String) :
    GivenIn (calls.flatMap Call.texts)
      (shownBy ((lastConflict calls).toList.flatMap (·.rejections inserted))) := by
  cases h : lastConflict calls with
  | none => exact .nil
  | some c =>
    obtain ⟨call, hcall, hconflict⟩ := List.mem_filterMap.1 (List.mem_of_getLast? h)
    have hsubset : c.texts ⊆ calls.flatMap Call.texts := by
      intro t ht
      refine List.mem_flatMap.2 ⟨call, hcall, ?_⟩
      cases call <;> cases hconflict
      exact ht
    rw [Option.toList_some, List.flatMap_singleton]
    exact (c.givenIn_rejections inserted).mono hsubset

theorem givenIn_rejections (table : String) (calls : List (Call α)) :
    GivenIn (table :: calls.flatMap Call.texts) (shownBy (rejections table calls)) := by
  have hcolumns := givenIn_columnRejections [] (firstKeys (calls.flatMap Call.added))
  have hconflict := givenIn_lastConflict calls (firstKeys (calls.flatMap Call.added))
  rw [rejections, shownBy_append, shownBy_append, shownBy_append, shownBy_rowRejections,
    List.append_nil]
  have hgiven := hcolumns.mono (firstKeys_subset calls)
  exact (givenIn_named givenIn_faults table calls).append (hgiven.cons table) |>.append
    (hconflict.cons table)

end Insert

end ParamSql
