import ParamSql.Catalog
import ParamSql.Proofs.Phrase.Pieces
import ParamSql.Proofs.Statement.Rows

/-!
# The names that an INSERT writes

The names that a caller gives for columns stand in the statement as identifiers: columns of rows and
columns that are updated without their qualifiers, all others as they are given. A statement that
compiles leaves none of them out.

Results:
* `Phrase.Mentions.seq`: what a phrase mentions, every sequence with it mentions.
* `Conflict.written_of_phrase`: the names of a conflict clause.
* `Insert.written_of_phrase`: the names of an INSERT.
-/

namespace ParamSql

variable {α : Type}

/-! ## Identifiers in a phrase -/

namespace Phrase

/-- The identifier stands in the phrase. -/
def Mentions (p : Phrase α) (x : Identifier) : Prop := Piece.name x ∈ p.pieces

theorem mentions_name (x : Identifier) : (name x : Phrase α).Mentions x := List.mem_singleton_self _

theorem Mentions.seq {separator : String} {items : List (Phrase α)} {p : Phrase α} {x : Identifier}
    (h : p.Mentions x) (hp : p ∈ items) : (seq separator items).Mentions x := by
  have hsome : p.isEmpty = false := by
    rw [← Bool.not_eq_true, ← pieces_eq_nil_iff]
    exact List.ne_nil_of_mem h
  rw [Mentions, pieces_seq]
  refine Piece.mem_joined_of_mem (List.mem_map_of_mem (List.mem_filter.2 ⟨hp, ?_⟩)) h
  rw [hsome]
  rfl

theorem mentions_parens {xs : List Identifier} {x : Identifier} (h : x ∈ xs) :
    (parens (listed (xs.map name)) : Phrase α).Mentions x := by
  have hlisted : (listed (xs.map name) : Phrase α).Mentions x :=
    (mentions_name x).seq (List.mem_map_of_mem h)
  exact hlisted.seq (by simp)

/-- The names are identifiers, and the phrase mentions what these are written as. -/
def Writes (p : Phrase α) (view : Identifier → Identifier) (names : List String) : Prop :=
  ∀ name ∈ names, ∃ x, Identifier.parse name = .ok x ∧ p.Mentions (view x)

theorem Writes.seq {separator : String} {items : List (Phrase α)} {p : Phrase α}
    {view : Identifier → Identifier} {names : List String} (h : p.Writes view names)
    (hp : p ∈ items) : (Phrase.seq separator items).Writes view names := fun name hname =>
  let ⟨x, hx, hmentions⟩ := h name hname
  ⟨x, hx, hmentions.seq hp⟩

theorem Writes.read {p : Phrase α} {view : Identifier → Identifier} {names : List String}
    (h : p.Writes view names) : ∀ name ∈ names, ∃ x, Identifier.parse name = .ok x :=
  fun name hname =>
    let ⟨x, hx, _⟩ := h name hname
    ⟨x, hx⟩

/-- Names that are read one after the other, in a phrase with all of them. -/
theorem writes_of_mapM {p : Phrase α} {view : Identifier → Identifier} {names : List String}
    {xs : List Identifier} (h : names.mapM Identifier.expect = .ok xs)
    (hp : ∀ x ∈ xs, p.Mentions (view x)) : p.Writes view names := by
  intro name hname
  obtain ⟨x, hx, hread⟩ := (mem_of_mapM h).1 name hname
  exact ⟨x, mapError_eq_ok_iff.1 hread, hp x hx⟩

end Phrase

open Catalog (conflictColumns)
open Phrase (Writes)

/-! ## The conflict clause -/

namespace Conflict

/-- The columns that a conflict is found on. -/
def targetNames (c : Conflict α) : List String :=
  match c.target with
  | .columns names => names
  | .constraint _ => []

/-- The constraint that a conflict is found on. -/
def constraintNames (c : Conflict α) : List String :=
  match c.target with
  | .columns _ => []
  | .constraint name => [name]

end Conflict

theorem ConflictTarget.written_of_phrase {c : Conflict α} {p : Phrase α}
    (h : c.target.phrase = .ok p) : p.Writes id c.targetNames ∧ p.Writes id c.constraintNames := by
  unfold Conflict.targetNames Conflict.constraintNames
  cases htarget : c.target with
  | columns names =>
    rw [htarget, phrase] at h
    split at h
    · cases h
    · obtain ⟨columns, hcolumns, h⟩ := bind_eq_ok_iff.1 h
      cases h
      exact ⟨Phrase.writes_of_mapM hcolumns fun x hx => Phrase.mentions_parens hx, by simp [Writes]⟩
  | constraint name =>
    rw [htarget, phrase] at h
    obtain ⟨x, hx, h⟩ := bind_eq_ok_iff.1 h
    cases h
    refine ⟨by simp [Writes], List.forall_mem_singleton.2 ⟨x, mapError_eq_ok_iff.1 hx, ?_⟩⟩
    exact (Phrase.mentions_name x).seq (by simp)

theorem mentions_excludedAll {columns : List Identifier} {p : Phrase α}
    (h : excludedAll columns = .ok p) {x : Identifier} (hx : x ∈ columns) : p.Mentions x.last := by
  unfold excludedAll at h
  split at h
  · cases h
  · cases h
    have hcolumn : (excluded x : Phrase α).Mentions x.last :=
      (Phrase.mentions_name x.last).seq (by simp)
    exact hcolumn.seq (List.mem_map_of_mem hx)

namespace Conflict

/-- The names of the columns that are updated. -/
theorem written_of_actionPhrase {c : Conflict α} {inserted : List Identifier} {filter p : Phrase α}
    (h : c.actionPhrase inserted filter = .ok p) : p.Writes Identifier.last (conflictColumns c) := by
  unfold actionPhrase at h
  unfold conflictColumns
  cases haction : c.action with
  | nothing => simp [Writes]
  | update set =>
    rw [haction] at h
    obtain ⟨assignments, hassignments, rfl⟩ := map_eq_ok_iff.1 h
    cases set with
    | inserted => simp [Writes]
    | columns names =>
      obtain ⟨columns, hcolumns, hassignments⟩ := bind_eq_ok_iff.1 hassignments
      have hwrites : assignments.Writes Identifier.last names :=
        Phrase.writes_of_mapM hcolumns fun x hx => mentions_excludedAll hassignments hx
      exact hwrites.seq (by simp)
    | values set =>
      simp only [UpdateSet.phrase] at hassignments
      split at hassignments
      · cases hassignments
      · obtain ⟨columns, hcolumns, hassignments⟩ := bind_eq_ok_iff.1 hassignments
        cases hassignments
        have hnames : (columns.map fun column => (Phrase.name column.last : Phrase α)) =
            (columns.map Identifier.last).map .name := List.map_map.symm
        rw [hnames]
        have hwrites : (Phrase.parens (.listed ((columns.map Identifier.last).map .name)) :
            Phrase α).Writes Identifier.last set.keys :=
          Phrase.writes_of_mapM hcolumns fun x hx =>
            Phrase.mentions_parens (List.mem_map_of_mem hx)
        have hset : (Phrase.concat [.parens (.listed ((columns.map Identifier.last).map .name)),
            .keyword " = ROW(", .listed (set.values.map .value), .keyword ")"]).Writes
            Identifier.last set.keys := hwrites.seq (by simp)
        exact hset.seq (by simp)

/-- What a conflict clause writes. -/
theorem written_of_phrase {c : Conflict α} {inserted : List Identifier} {p : Phrase α}
    (h : c.phrase inserted = .ok p) :
    p.Writes id c.targetNames ∧ p.Writes id c.constraintNames ∧
      p.Writes Identifier.last (conflictColumns c) := by
  obtain ⟨target, htarget, h⟩ := bind_eq_ok_iff.1 h
  obtain ⟨filter, -, h⟩ := bind_eq_ok_iff.1 h
  obtain ⟨action, haction, h⟩ := bind_eq_ok_iff.1 h
  cases h
  obtain ⟨hcolumns, hconstraint⟩ := ConflictTarget.written_of_phrase htarget
  have hupdated := written_of_actionPhrase haction
  exact ⟨hcolumns.seq (by simp), hconstraint.seq (by simp), hupdated.seq (by simp)⟩

end Conflict

/-! ## The statement -/

/-- The column of an entry of a column list, unless it is a wildcard. -/
def Projection.column? : Projection → Option Identifier
  | .column x => some x
  | .table _ => none
  | .all => none

theorem Projection.column?_eq_some_iff {entry : Projection} {x : Identifier} :
    entry.column? = some x ↔ entry = .column x := by
  cases entry <;> simp [column?]

namespace Insert

/-- The names that a conflict clause brings, if there is one. -/
def conflictNames (i : Insert α) (names : Conflict α → List String) : List String :=
  i.conflict.toList.flatMap names

/-- The columns that are returned one by one, not by a wildcard. -/
def returnedColumns (i : Insert α) : List Identifier := i.returning.filterMap Projection.column?

/-- An INSERT writes all names that are given for it: columns of rows and columns that are updated
without qualifiers, all others as they are. -/
structure Writes (i : Insert α) (p : Phrase α) : Prop where
  rows : p.Writes Identifier.last (i.rows.flatMap OrderedMap.keys)
  target : p.Writes id (i.conflictNames Conflict.targetNames)
  updated : p.Writes Identifier.last (i.conflictNames conflictColumns)
  constraint : p.Writes id (i.conflictNames Conflict.constraintNames)
  returning : ∀ x ∈ i.returnedColumns, p.Mentions x

/-- The names of columns are read one after the other. -/
theorem read_of_foldlM_addColumn {names : List String} {before columns : List Identifier}
    (h : names.foldlM addColumn before = .ok columns) :
    before ⊆ columns ∧ ∀ name ∈ names, ∃ x, Identifier.parse name = .ok x ∧ x.last ∈ columns := by
  induction names generalizing before with
  | nil =>
    cases h
    exact ⟨List.Subset.refl _, by simp⟩
  | cons name rest ih =>
    rw [List.foldlM_cons] at h
    obtain ⟨further, hadd, h⟩ := bind_eq_ok_iff.1 h
    obtain ⟨x, hx, -, rfl⟩ := (addColumn_eq_ok_iff _ _ _).1 hadd
    obtain ⟨hbefore, hrest⟩ := ih h
    obtain ⟨hsubset, hlast⟩ := List.append_subset.1 hbefore
    exact ⟨hsubset, List.forall_mem_cons.2 ⟨⟨x, hx, hlast (List.mem_singleton_self _)⟩, hrest⟩⟩

theorem writes_rows {i : Insert α} {columns : List Identifier} {p : Phrase α}
    (hcolumns : i.targetColumns = .ok columns) (h : i.valuesClause columns = .ok p) :
    p.Writes Identifier.last (i.rows.flatMap OrderedMap.keys) := by
  obtain ⟨first, more, hrows, hfit, hclause⟩ := valuesClause_cases hcolumns h
  rw [targetColumns, hrows] at hcolumns
  obtain ⟨-, hread⟩ := read_of_foldlM_addColumn hcolumns
  have hmentions : ∀ x ∈ columns, p.Mentions x := by
    rcases hclause with ⟨-, -, rfl, -⟩ | ⟨-, rfl⟩
    · simp
    · exact fun x hx => (Phrase.mentions_parens hx).seq (by simp)
  -- A row behind the first one sets the columns of the first, which are read.
  intro name hname
  rw [hrows] at hname
  obtain ⟨row, hrow, hname⟩ := List.mem_flatMap.1 hname
  obtain ⟨x, hx, hlast⟩ := hread name ((hfit row hrow).mem_iff.2 hname)
  exact ⟨x, hx, hmentions _ hlast⟩

theorem mentions_returning {entries : List Projection} {x : Identifier}
    (h : x ∈ entries.filterMap Projection.column?) :
    (Projection.returning entries : Phrase α).Mentions x := by
  obtain ⟨entry, hentry, hx⟩ := List.mem_filterMap.1 h
  obtain rfl := Projection.column?_eq_some_iff.1 hx
  have hsome : ¬ entries.isEmpty = true := by
    rw [List.isEmpty_iff]
    exact List.ne_nil_of_mem hentry
  have hselection : (Projection.selection entries : Phrase α).Mentions x := by
    rw [Projection.selection, if_neg hsome]
    exact (Phrase.mentions_name x).seq
      (List.mem_map_of_mem ((Projection.mem_arrange _ entries).2 hentry))
  rw [Projection.returning, if_neg hsome]
  exact hselection.seq (by simp)

theorem written_of_phrase {i : Insert α} {p : Phrase α} (h : i.phrase = .ok p) : i.Writes p := by
  obtain ⟨-, -, h⟩ := bind_eq_ok_iff.1 h
  obtain ⟨table, -, h⟩ := bind_eq_ok_iff.1 h
  obtain ⟨columns, hcolumns, h⟩ := bind_eq_ok_iff.1 h
  obtain ⟨values, hvalues, h⟩ := bind_eq_ok_iff.1 h
  obtain ⟨conflict, hconflict, h⟩ := bind_eq_ok_iff.1 h
  cases h
  have hrows := writes_rows hcolumns hvalues
  have hclause : conflict.Writes id (i.conflictNames Conflict.targetNames) ∧
      conflict.Writes id (i.conflictNames Conflict.constraintNames) ∧
      conflict.Writes Identifier.last (i.conflictNames conflictColumns) := by
    unfold conflictClause at hconflict
    unfold conflictNames
    cases hsome : i.conflict with
    | none => simp [Phrase.Writes]
    | some c =>
      rw [hsome] at hconflict
      simpa using Conflict.written_of_phrase hconflict
  obtain ⟨htarget, hconstraint, hupdated⟩ := hclause
  exact {
    rows := hrows.seq (by simp)
    target := htarget.seq (by simp)
    updated := hupdated.seq (by simp)
    constraint := hconstraint.seq (by simp)
    returning := fun x hx => (mentions_returning hx).seq (by simp) }

end Insert

end ParamSql
