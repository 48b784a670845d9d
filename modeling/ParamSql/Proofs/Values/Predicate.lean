import ParamSql.Proofs.Predicate.Faults
import ParamSql.Proofs.Predicate.Merge

/-!
# The values of a predicate

The values that a predicate binds are those that its calls were given, in the order of the calls:
groups and merges keep them together, and none of the forms that a condition is written in loses or
repeats one.

Results:
* `values_apply`: what one call adds to the values.
* `values_ofCalls`: the values of a predicate built by calls.
* `compile_merged`: a predicate that is merged into no conditions compiles as it does on its own.
-/

namespace ParamSql

variable {α : Type}

/-! ## Single conditions -/

theorem Phrase.values_bound (values : List α) :
    (listed (values.map Phrase.value)).values = values := by
  rw [values_listed, List.flatMap_map]
  exact List.flatMap_singleton' values

namespace Condition

theorem values_equalities (pairs : List (Identifier × α)) :
    (equalities pairs).values = pairs.map Prod.snd := by
  rcases pairs with - | ⟨first, - | ⟨second, rest⟩⟩
  · rfl
  · rfl
  · have hparens := Phrase.values_parens
      (.seq " AND " ((first :: second :: rest).map equality))
    rw [Phrase.values_seq, List.flatMap_map] at hparens
    exact hparens.trans List.map_eq_flatMap.symm

theorem values_membership (column : Identifier) (vs : List α) (negated : Bool) :
    (membership column vs negated).values = vs := by
  unfold membership
  split
  · rename_i h
    rw [List.isEmpty_iff.1 h]
    exact Phrase.values_keyword _
  · rw [Phrase.values_concat]
    simp only [List.flatMap_cons, List.flatMap_nil, Phrase.values_keyword, Phrase.values_bound,
      List.append_nil, List.nil_append]
    rfl

end Condition

namespace Template

theorem values_fill {values : List α} {texts : List (List Char)}
    (h : texts.length = values.length) : (fill values texts).flatMap Phrase.values = values := by
  induction values generalizing texts with
  | nil => cases texts <;> rfl
  | cons v values ih =>
    cases texts with
    | nil => cases h
    | cons text more =>
      rw [fill, List.flatMap_cons, List.flatMap_cons, ih (Nat.succ.inj h), Phrase.values_raw]
      rfl

theorem values_phrase? {sql : String} {values : List α} {phrase : Phrase α}
    (h : phrase? sql values = some phrase) : phrase.values = values := by
  obtain ⟨harity, rfl⟩ := phrase?_eq_some_iff.1 h
  rw [Phrase.values_concat, List.flatMap_cons, Phrase.values_raw, List.nil_append,
    values_fill harity]

end Template

/-! ## Calls -/

namespace Predicate

open Condition (EveryOf InWords values)
open Call (IsValid AllValid)

namespace Call

mutual

/-- The values that a call is given, in order. -/
def given : Call α → List α
  | .equal _ _ value => [value]
  | .equalAll columns => columns.values
  | .oneOf _ _ values => values
  | .noneOf _ values => values
  | .raw _ _ => []
  | .template _ values => values
  | .all => []
  | .group _ calls => allGiven calls
  | .merge calls => allGiven calls

/-- The values that calls are given, one call after the other. -/
def allGiven : List (Call α) → List α
  | [] => []
  | call :: calls => given call ++ allGiven calls

end

theorem allGiven_eq (calls : List (Call α)) : allGiven calls = calls.flatMap given := by
  induction calls with
  | nil => rfl
  | cons call calls ih => rw [allGiven, ih, List.flatMap_cons]

end Call

open Call (given allGiven)

theorem values_add (p : Predicate α) (junction : Junction) (c : Condition α) :
    values (p.add junction c).conditions = values p.conditions ++ c.phrase.values := by
  rw [add, Condition.values_append]
  exact congrArg _ (List.append_nil _)

theorem values_column (p : Predicate α) (junction : Junction) {name : ColumnName}
    (h : name.Resolves) {c : Identifier → Condition α} {vs : List α}
    (hc : ∀ x, (c x).phrase.values = vs) :
    values (p.addResult junction ((column name).map c)).conditions = values p.conditions ++ vs := by
  obtain ⟨x, hx⟩ := h
  rw [column_eq_ok_iff.2 hx, ← hc x]
  exact values_add p junction (c x)

theorem values_of_entries {entries : List (String × α)} {pairs : List (Identifier × α)}
    (h : entries.mapM pairOf = .ok pairs) : pairs.map Prod.snd = entries.map Prod.snd :=
  map_of_mapM (fun _ _ hpair => (pairOf_eq_ok_iff.1 hpair).2) h

theorem values_equalAll (p : Predicate α) {columns : OrderedMap α}
    (h : ∀ entry ∈ columns.entries, (ColumnName.text entry.1).Resolves) :
    values (p.equalAll columns).conditions = values p.conditions ++ columns.values := by
  obtain ⟨pairs, hpairs⟩ := exists_mapM_eq_ok_iff.2 fun entry hentry =>
    exists_pairOf_iff.2 (h entry hentry)
  rw [equalAll, hpairs, OrderedMap.values, ← values_of_entries hpairs,
    ← Condition.values_equalities]
  exact values_add p .and (.equal pairs)

theorem values_template (p : Predicate α) {sql : String} {vs : List α}
    (h : Template.placeholders sql.toList = vs.length) :
    values (p.template sql vs).conditions = values p.conditions ++ vs := by
  obtain ⟨phrase, hphrase⟩ := Option.ne_none_iff_exists'.1
    (mt (Template.phrase?_eq_none_iff sql vs).1 (not_not_intro h))
  have hadd := values_add p .and (.raw phrase)
  rw [Condition.phrase, Template.values_phrase? hphrase] at hadd
  rw [template, hphrase]
  exact hadd

theorem values_group (p inner : Predicate α) (junction : Junction) :
    values (p.group junction inner).conditions =
      values p.conditions ++ values inner.conditions := by
  have hadd := values_add { p with fault := p.fault.or inner.fault } junction
    (.group inner.conditions)
  have hinner : (Condition.group inner.conditions).phrase.values = values inner.conditions := by
    rw [Condition.phrase, Condition.values_grouped]
    exact values_phrase inner
  rw [hinner] at hadd
  exact hadd

mutual

/-- A call adds the values that it is given. -/
theorem values_apply : ∀ (p : Predicate α) (call : Call α), EveryOf InWords p.conditions →
    call.IsValid → values (p.apply call).conditions = values p.conditions ++ call.given
  | p, .equal junction _ v, _, h => values_column p junction h fun _ => rfl
  | p, .equalAll _, _, h => values_equalAll p h
  | p, .oneOf junction _ vs, _, h =>
    values_column p junction h fun x => Condition.values_membership x vs false
  | p, .noneOf _ vs, _, h => values_column p .and h fun x => Condition.values_membership x vs true
  | p, .raw junction sql, _, _ => by
    rw [apply, raw, values_add, Condition.phrase, Phrase.values_raw, given]
  | p, .template _ _, _, h => values_template p h
  | p, .all, _, _ => values_add p .and .all
  | p, .group junction calls, _, h => by
    rw [apply, values_group, values_applyAll ∅ calls trivial h, given]
    rfl
  | p, .merge calls, hp, h => by
    have hmerge := values_merge hp (ofCalls_inWords calls)
    rw [values_phrase, values_phrase, values_phrase, ofCalls,
      values_applyAll ∅ calls trivial h] at hmerge
    exact hmerge

/-- Calls add the values that they are given, one after the other. -/
theorem values_applyAll : ∀ (p : Predicate α) (calls : List (Call α)),
    EveryOf InWords p.conditions → AllValid calls →
    values (p.applyAll calls).conditions = values p.conditions ++ allGiven calls
  | p, [], _, _ => (List.append_nil _).symm
  | p, call :: calls, hp, h => by
    have hnext := everyOf_apply call hp (adds_inWords call)
    rw [applyAll_cons, values_applyAll (p.apply call) calls hnext h.2, values_apply p call hp h.1,
      allGiven, List.append_assoc]

end

/-- A predicate that compiles binds the values that its calls are given, in order. -/
theorem values_ofCalls {calls : List (Call α)} {phrase : Phrase α}
    (h : (ofCalls calls).compile = .ok phrase) : phrase.values = allGiven calls := by
  obtain ⟨hfault, rfl⟩ := (compile_eq_ok_iff _ _).1 h
  rw [values_phrase]
  exact values_applyAll ∅ calls trivial ((fault_ofCalls calls).1 hfault)

/-- A predicate that is merged into no conditions compiles as it does on its own. -/
theorem compile_merged (calls : List (Call α)) :
    (ofCalls [.merge calls]).compile = (ofCalls calls).compile := rfl

end Predicate

end ParamSql
