import ParamSql.Conflict
import ParamSql.Join
import ParamSql.Projection
import ParamSql.Proofs.Mapping.Predicate
import ParamSql.RowLock
import ParamSql.SortKey

/-!
# Clauses with other values

The clauses that are made of names alone bind no values, so a function on values leaves them as they
are. A conflict clause binds values in its action and in its filter.

Results:
* `Projection.map_selection`, `Join.map_clause`, `RowLock.map_clause`, `SortKey.clause_map`: clauses
  without values.
* `Conflict.phrase_map`: the conflict clause is refused for the same cause, or written with replaced
  values.
-/

namespace ParamSql

variable {α β : Type} (f : α → β)

/-! ## Clauses without values -/

namespace Projection

theorem map_phrase (entry : Projection) : (entry.phrase : Phrase α).map f = entry.phrase := by
  cases entry with
  | column name => rfl
  | table name => exact Phrase.map_concat f _
  | all => rfl

@[simp] theorem map_selection (entries : List Projection) :
    (selection entries : Phrase α).map f = selection entries := by
  rw [selection, selection]
  split
  · rfl
  · rw [Phrase.map_listed, List.map_map]
    exact congrArg _ (List.map_congr_left fun entry _ => map_phrase f entry)

@[simp] theorem map_returning (entries : List Projection) :
    (returning entries : Phrase α).map f = returning entries := by
  rw [returning, returning]
  split
  · rfl
  · rw [Phrase.map_concat, List.map_cons, List.map_singleton, map_selection, Phrase.map_keyword]

end Projection

namespace Join

theorem map_phrase (j : Join) : (j.phrase : Phrase α).map f = j.phrase := by
  obtain ⟨kind, table, condition⟩ := j
  cases condition with
  | columns a b => simp [phrase, conditionPhrase]
  | raw sql => simp [phrase, conditionPhrase]

@[simp] theorem map_clause (joins : List Join) :
    (clause joins : Phrase α).map f = clause joins := by
  rw [clause, Phrase.map_spaced, List.map_map]
  exact congrArg _ (List.map_congr_left fun j _ => map_phrase f j)

end Join

namespace RowLock

theorem map_phrase (l : RowLock) : (l.phrase : Phrase α).map f = l.phrase := by
  simp only [phrase, Phrase.map_spaced, List.map_cons, List.map_nil, Phrase.map_keyword,
    Phrase.map_ledBy, Phrase.map_listed, Phrase.map_names]

@[simp] theorem map_clause (locks : List RowLock) :
    (clause locks : Phrase α).map f = clause locks := by
  rw [clause, Phrase.map_spaced, List.map_map]
  exact congrArg _ (List.map_congr_left fun l _ => map_phrase f l)

end RowLock

namespace SortKey

theorem phrase_map (k : SortKey) :
    (k.phrase : Except Rejection (Phrase β)) = (k.phrase : Except _ (Phrase α)).map (.map f) := by
  simp only [phrase, map_bind, map_pure, Phrase.map_concat, List.map_cons, List.map_nil,
    Phrase.map_name, Phrase.map_keyword]

theorem clause_map (keys : List SortKey) :
    (clause keys : Except Rejection (Phrase β)) =
      (clause keys : Except _ (Phrase α)).map (.map f) := by
  have hkeys := mapM_hom (f := id) (phrase_map f) keys
  rw [List.map_id] at hkeys
  rw [clause, clause, hkeys]
  split
  · rfl
  · cases keys.mapM (phrase (α := α)) with
    | error cause => rfl
    | ok phrases =>
      refine congrArg Except.ok ?_
      rw [Phrase.map_concat, List.map_cons, List.map_singleton, Phrase.map_listed]
      rfl

end SortKey

/-! ## Conflict clauses -/

theorem ConflictTarget.phrase_map (target : ConflictTarget) :
    (target.phrase : Except Rejection (Phrase β)) =
      (target.phrase : Except _ (Phrase α)).map (.map f) := by
  cases target with
  | columns names =>
    simp only [phrase]
    split
    · rfl
    · simp only [map_bind, map_pure, Phrase.map_parens, Phrase.map_listed, Phrase.map_names]
  | constraint name =>
    simp only [phrase, map_bind, map_pure, Phrase.map_concat, List.map_cons, List.map_nil,
      Phrase.map_name, Phrase.map_keyword]

theorem excludedAll_map (columns : List Identifier) :
    (excludedAll columns : Except Rejection (Phrase β)) =
      (excludedAll columns : Except _ (Phrase α)).map (.map f) := by
  rw [excludedAll, excludedAll]
  split
  · rfl
  · refine congrArg Except.ok ?_
    have hexcluded (column : Identifier) : (excluded column : Phrase α).map f = excluded column :=
      Phrase.map_concat f _
    rw [Phrase.map_listed, List.map_map]
    exact congrArg _ (List.map_congr_left fun column _ => (hexcluded column).symm)

/-- The columns of an update with replaced values. -/
def UpdateSet.map : UpdateSet α → UpdateSet β
  | .inserted => .inserted
  | .columns names => .columns names
  | .values set => .values (set.map f)

theorem UpdateSet.phrase_map (inserted : List Identifier) (set : UpdateSet α) :
    (set.map f).phrase inserted = (set.phrase inserted).map (.map f) := by
  cases set with
  | inserted => exact excludedAll_map f inserted
  | columns names =>
    simp only [map, phrase, map_bind, ← excludedAll_map]
  | values columns =>
    simp only [map, phrase, OrderedMap.isEmpty_map, OrderedMap.keys_map, OrderedMap.values_map]
    split
    · rfl
    · simp only [map_bind, map_pure, Phrase.map_concat, List.map_cons, List.map_nil,
        Phrase.map_parens, Phrase.map_listed, Phrase.map_keyword, List.map_map]
      rfl

/-- The action of a conflict clause with replaced values. -/
def ConflictAction.map : ConflictAction α → ConflictAction β
  | .nothing => .nothing
  | .update set => .update (set.map f)

namespace Conflict

/-- The clause with replaced values. -/
def map (c : Conflict α) : Conflict β := ⟨c.target, c.action.map f, c.filter.map f⟩

theorem actionPhrase_map (c : Conflict α) (inserted : List Identifier) (filter : Phrase α) :
    (c.map f).actionPhrase inserted (filter.map f) =
      (c.actionPhrase inserted filter).map (.map f) := by
  obtain ⟨target, action, predicate⟩ := c
  cases action with
  | nothing =>
    simp only [actionPhrase, map, ConflictAction.map, Phrase.isEmpty_map]
    split
    · rfl
    · simp [Except.map]
  | update set =>
    simp only [actionPhrase, map, ConflictAction.map, UpdateSet.phrase_map]
    cases set.phrase inserted with
    | error cause => rfl
    | ok assignments => simp [Except.map]

/-- A conflict clause with replaced values is refused for the same cause. -/
theorem phrase_map (c : Conflict α) (inserted : List Identifier) :
    (c.map f).phrase inserted = (c.phrase inserted).map (.map f) := by
  have htarget := ConflictTarget.phrase_map f c.target
  have hfilter : (c.map f).filter.compile = c.filter.compile.map (.map f) :=
    Predicate.compile_map f c.filter
  rw [phrase, phrase, hfilter]
  change (c.target.phrase >>= _) = _
  simp only [htarget, bind_map, map_bind, map_pure, actionPhrase_map, Phrase.map_spaced,
    List.map_cons, List.map_nil, Phrase.map_keyword]

end Conflict

end ParamSql
