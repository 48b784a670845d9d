import Mathlib.Data.List.Perm.Subperm
import ParamSql.Insert
import ParamSql.Proofs.Checks

/-!
# The rows of an INSERT

A row fits the first one if it sets the same columns, in any order. Its values are then written in
the order of the columns of the first row, and none is lost or written twice.

Results:
* `get?_of_mem`: every entry of a map is what its key is looked up to.
* `length_targetColumns`, `targetColumns_isEmpty`: how many columns there are.
* `sameColumns_iff`: a row fits exactly if its columns are those of the first row, rearranged.
* `valuesClause_cases`: the part with the columns and the rows.
* `tuple_values`, `tuple_perm`: the values of a row that fits.
-/

namespace ParamSql

variable {α : Type}

namespace OrderedMap

theorem contains_iff (m : OrderedMap α) (key : String) : m.contains key = true ↔ key ∈ m.keys := by
  simp [contains, keys]

theorem size_eq (m : OrderedMap α) : m.size = m.keys.length := (List.length_map _).symm

theorem isEmpty_iff (m : OrderedMap α) : m.isEmpty = true ↔ m.keys = [] := by
  simp [isEmpty, keys]

/-- Every entry is what its key is looked up to, as no key stands twice. -/
theorem get?_of_mem (m : OrderedMap α) {entry : String × α} (h : entry ∈ m.entries) :
    m.get? entry.1 = some entry.2 := by
  obtain ⟨entries, hnodup⟩ := m
  change (entries.find? fun other => decide (other.1 = entry.1)).map Prod.snd = _
  induction entries with
  | nil => cases h
  | cons first rest ih =>
    obtain ⟨hfirst, hrest⟩ := List.nodup_cons.1 hnodup
    rcases List.mem_cons.1 h with rfl | hmem
    · simp
    · have hne : first.1 ≠ entry.1 := fun e => hfirst (e ▸ List.mem_map_of_mem hmem)
      rw [List.find?_cons_of_neg (by simpa using hne)]
      exact ih hrest hmem

theorem exists_get? (m : OrderedMap α) {key : String} (h : key ∈ m.keys) :
    ∃ v, m.get? key = some v := by
  obtain ⟨entry, hentry, rfl⟩ := List.mem_map.1 h
  exact ⟨entry.2, m.get?_of_mem hentry⟩

/-- Looking up all keys in order gives the values in order. -/
theorem filterMap_get? (m : OrderedMap α) : m.keys.filterMap m.get? = m.values := by
  rw [keys, List.filterMap_map, values, ← List.filterMap_eq_map]
  exact List.filterMap_congr fun entry hentry => m.get?_of_mem hentry

end OrderedMap

namespace Insert

/-- The columns of the first row, as they are given. -/
def firstKeys (rows : List (OrderedMap α)) : List String := rows.head?.elim [] OrderedMap.keys

theorem length_foldlM_addColumn {names : List String} {before columns : List Identifier}
    (h : names.foldlM addColumn before = .ok columns) :
    columns.length = before.length + names.length := by
  induction names generalizing before with
  | nil =>
    cases h
    rfl
  | cons name rest ih =>
    rw [List.foldlM_cons, bind_eq_ok_iff] at h
    obtain ⟨further, hadd, hrest⟩ := h
    obtain ⟨x, -, -, rfl⟩ := (addColumn_eq_ok_iff _ _ _).1 hadd
    rw [ih hrest, List.length_append, List.length_singleton, List.length_cons]
    omega

theorem targetColumns_eq_foldlM (i : Insert α) :
    i.targetColumns = (firstKeys i.rows).foldlM addColumn [] := by
  unfold targetColumns
  cases i.rows <;> rfl

/-- There is a column for each name of the first row. -/
theorem length_targetColumns {i : Insert α} {columns : List Identifier}
    (h : i.targetColumns = .ok columns) : columns.length = (firstKeys i.rows).length := by
  rw [targetColumns_eq_foldlM] at h
  exact (length_foldlM_addColumn h).trans (Nat.zero_add _)

/-- There are no columns exactly if the first row has none. -/
theorem targetColumns_isEmpty {i : Insert α} {columns : List Identifier}
    (h : i.targetColumns = .ok columns) : columns.isEmpty = (firstKeys i.rows).isEmpty := by
  rw [Bool.eq_iff_iff, List.isEmpty_iff_length_eq_zero, List.isEmpty_iff_length_eq_zero,
    length_targetColumns h]

/-- A row fits exactly if its columns are those of the first row, rearranged. -/
theorem sameColumns_iff (first row : OrderedMap α) :
    sameColumns first row = true ↔ first.keys.Perm row.keys := by
  simp only [sameColumns, Bool.and_eq_true, decide_eq_true_eq, List.all_eq_true,
    OrderedMap.contains_iff, OrderedMap.size_eq]
  constructor
  · rintro ⟨hlength, hsubset⟩
    exact (List.subperm_of_subset first.keys_nodup hsubset).perm_of_length_le (Nat.le_of_eq hlength)
  · intro hperm
    exact ⟨hperm.length_eq.symm, fun key hkey => hperm.mem_iff.1 hkey⟩

/-- Rows that are written are written as their tuples, and fit the first one. -/
theorem forall_tupleAt {first : OrderedMap α} {rows : List (OrderedMap α)} {start : Nat}
    {tuples : List (Phrase α)} (h : (rows.zipIdx start).mapM (tupleAt first) = .ok tuples) :
    tuples = rows.map (tuple first) ∧ ∀ row ∈ rows, first.keys.Perm row.keys := by
  induction rows generalizing start tuples with
  | nil =>
    cases h
    exact ⟨rfl, by simp⟩
  | cons row rest ih =>
    rw [List.zipIdx_cons, List.mapM_cons] at h
    obtain ⟨written, hwritten, h⟩ := bind_eq_ok_iff.1 h
    obtain ⟨more, hmore, h⟩ := bind_eq_ok_iff.1 h
    cases h
    unfold tupleAt at hwritten
    split at hwritten
    · rename_i hfits
      cases hwritten
      obtain ⟨rfl, hrest⟩ := ih hmore
      exact ⟨rfl, List.forall_mem_cons.2 ⟨(sameColumns_iff first row).1 hfits, hrest⟩⟩
    · cases hwritten

/-- The rows of an INSERT that is written fit the first one; they stand behind the columns, unless
there is a single row without columns. -/
theorem valuesClause_cases {i : Insert α} {columns : List Identifier} {p : Phrase α}
    (hcolumns : i.targetColumns = .ok columns) (h : i.valuesClause columns = .ok p) :
    ∃ first more, i.rows = first :: more ∧ (∀ row ∈ first :: more, first.keys.Perm row.keys) ∧
      (first.keys = [] ∧ more = [] ∧ columns = [] ∧ p = .keyword "DEFAULT VALUES" ∨
        columns ≠ [] ∧ p = .spaced [.parens (.listed (columns.map .name)), .keyword "VALUES",
          .listed ((first :: more).map (tuple first))]) := by
  have hempty := targetColumns_isEmpty hcolumns
  unfold valuesClause at h
  cases hrows : i.rows with
  | nil =>
    rw [hrows] at h
    cases h
  | cons first more =>
    rw [hrows] at h hempty
    replace hempty : columns.isEmpty = first.keys.isEmpty := hempty
    refine ⟨first, more, rfl, ?_⟩
    by_cases hkeys : first.keys = []
    · rw [hkeys] at hempty
      simp only [hempty, List.isEmpty_nil, if_true] at h
      cases more with
      | nil =>
        cases h
        exact ⟨List.forall_mem_singleton.2 (List.Perm.refl _),
          .inl ⟨hkeys, rfl, List.isEmpty_iff.1 hempty, rfl⟩⟩
      | cons row more => cases h
    · rw [List.isEmpty_eq_false_iff.2 hkeys] at hempty
      simp only [hempty] at h
      obtain ⟨tuples, htuples, rfl⟩ := map_eq_ok_iff.1 h
      obtain ⟨rfl, hfit⟩ := forall_tupleAt htuples
      exact ⟨hfit, .inr ⟨List.isEmpty_eq_false_iff.1 hempty, rfl⟩⟩

section

variable {first row : OrderedMap α} (h : first.keys.Perm row.keys)

include h

/-- The values of a row that fits are what the columns of the first row are looked up to. -/
theorem tuple_values : (first.keys.filterMap row.get?).map some = first.keys.map row.get? := by
  have hall : ∀ key ∈ first.keys, ∃ v, row.get? key = some v := fun key hkey =>
    row.exists_get? (h.mem_iff.1 hkey)
  generalize first.keys = keys at hall
  induction keys with
  | nil => rfl
  | cons key rest ih =>
    obtain ⟨⟨v, hv⟩, hrest⟩ := List.forall_mem_cons.1 hall
    rw [List.filterMap_cons, hv, List.map_cons, List.map_cons, ih hrest, hv]

/-- The values of a row that fits are those that it sets. -/
theorem tuple_perm : (first.keys.filterMap row.get?).Perm row.values := by
  rw [← row.filterMap_get?]
  exact h.filterMap row.get?

end

end Insert

end ParamSql
