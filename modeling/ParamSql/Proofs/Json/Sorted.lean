import Mathlib.Data.String.Basic
import ParamSql.Json

/-!
# The fields that are shown of an object

The fields of an object are shown in the order of their names, each name once and with the last
value that the object has for it. So objects that give every name the same last value are shown
alike, in whatever order their fields stand and whatever they repeat.

Results:
* `rising_putSorted`, `mem_putSorted_iff`: one field that is sorted in.
* `rising_shownFields`, `mem_shownFields_iff`: all fields.
* `shown_object_congr`: objects with the same last values.
-/

namespace ParamSql.Json

/-- The names rise. -/
def Rising (fields : List (String × String)) : Prop := fields.Pairwise (·.1 < ·.1)

theorem mem_putSorted_iff {fields : List (String × String)} (h : Rising fields)
    (key value : String) (field : String × String) :
    field ∈ putSorted key value fields ↔
      field = (key, value) ∨ field ∈ fields ∧ field.1 ≠ key := by
  induction fields with
  | nil => simp [putSorted]
  | cons first rest ih =>
    obtain ⟨hfirst, hrest⟩ := List.pairwise_cons.1 h
    rw [putSorted]
    split
    · rename_i hlt
      have hne : field ∈ first :: rest → field.1 ≠ key := by
        intro hfield
        rcases List.mem_cons.1 hfield with rfl | hfield
        · exact hlt.ne'
        · exact (hlt.trans (hfirst field hfield)).ne'
      rw [List.mem_cons, and_iff_left_of_imp hne]
    split
    · rename_i heq
      subst heq
      have hne : field ∈ rest → field.1 ≠ first.1 := fun hfield => (hfirst field hfield).ne'
      rw [List.mem_cons, List.mem_cons, or_and_right, and_iff_left_of_imp hne]
      refine or_congr_right (or_iff_right ?_).symm
      rintro ⟨rfl, hfield⟩
      exact hfield rfl
    · rename_i hne
      have hfirst' : field = first → field.1 ≠ key := by
        rintro rfl
        exact Ne.symm hne
      rw [List.mem_cons, List.mem_cons, ih hrest, or_and_right, and_iff_left_of_imp hfirst']
      exact or_left_comm

theorem rising_putSorted {fields : List (String × String)} (h : Rising fields)
    (key value : String) : Rising (putSorted key value fields) := by
  induction fields with
  | nil => exact List.pairwise_singleton _ _
  | cons first rest ih =>
    have hrest := List.pairwise_cons.1 h
    rw [putSorted]
    split
    · rename_i hlt
      refine List.pairwise_cons.2 ⟨?_, h⟩
      rintro field hfield
      rcases List.mem_cons.1 hfield with rfl | hfield
      · exact hlt
      · exact hlt.trans (hrest.1 field hfield)
    split
    · rename_i heq
      subst heq
      exact List.pairwise_cons.2 hrest
    · rename_i hlt hne
      refine List.pairwise_cons.2 ⟨?_, ih hrest.2⟩
      intro field hfield
      rcases (mem_putSorted_iff hrest.2 key value field).1 hfield with rfl | ⟨hfield, -⟩
      · exact lt_of_le_of_ne (not_lt.1 hlt) (Ne.symm hne)
      · exact hrest.1 field hfield

/-- The last value of a name; a name that is no text counts as the empty one. -/
def lastOf (fields : List (Option String × Json)) (key : String) : Option Json :=
  (fields.reverse.find? fun field => field.1.getD "" == key).map Prod.snd

theorem lastOf_cons (first : Option String × Json) (rest : List (Option String × Json))
    (key : String) : lastOf (first :: rest) key =
      (lastOf rest key).or (if first.1.getD "" = key then some first.2 else none) := by
  rw [lastOf, lastOf, List.reverse_cons, List.find?_append, Option.map_or]
  congr 1
  by_cases h : first.1.getD "" = key
  · simp [h]
  · simp [h]

theorem rising_shownFields (fields : List (Option String × Json)) {sorted : List (String × String)}
    (h : Rising sorted) : Rising (shownFields fields sorted) := by
  induction fields generalizing sorted with
  | nil => exact h
  | cons first rest ih => exact ih (rising_putSorted h _ _)

/-- A name is shown with its last value, and if it has none it is not shown. -/
theorem mem_shownFields_iff (fields : List (Option String × Json)) {sorted : List (String × String)}
    (h : Rising sorted) (key text : String) :
    (key, text) ∈ shownFields fields sorted ↔
      (∃ value, lastOf fields key = some value ∧ text = value.shown) ∨
        lastOf fields key = none ∧ (key, text) ∈ sorted := by
  induction fields generalizing sorted with
  | nil => simp [shownFields, lastOf]
  | cons first rest ih =>
    obtain ⟨name, value⟩ := first
    rw [shownFields, ih (rising_putSorted h _ _), mem_putSorted_iff h, lastOf_cons]
    cases hlast : lastOf rest key with
    | some last => simp
    | none =>
      by_cases hkey : name.getD "" = key
      · simp [hkey]
      · simp [hkey, Ne.symm hkey]

/-- Objects with the same last values are shown alike. -/
theorem shown_object_congr {fields more : List (Option String × Json)}
    (h : ∀ key, lastOf fields key = lastOf more key) :
    (object fields).shown = (object more).shown := by
  have hfields : Rising (shownFields fields []) := rising_shownFields fields .nil
  have hmore : Rising (shownFields more []) := rising_shownFields more .nil
  have hsame : shownFields fields [] = shownFields more [] := by
    have hnodup {sorted : List (String × String)} (hsorted : Rising sorted) : sorted.Nodup :=
      hsorted.imp fun hlt heq => hlt.ne (congrArg Prod.fst heq)
    refine List.Perm.eq_of_pairwise ?_ hfields hmore
      ((List.perm_ext_iff_of_nodup (hnodup hfields) (hnodup hmore)).2 fun field => ?_)
    · intro a b _ _ hab hba
      exact absurd hba hab.asymm
    · rw [mem_shownFields_iff fields .nil field.1 field.2,
        mem_shownFields_iff more .nil field.1 field.2, h]
  rw [shown, shown, hsame]

end ParamSql.Json
