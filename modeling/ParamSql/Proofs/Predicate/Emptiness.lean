import ParamSql.Proofs.Predicate.Meaning
import ParamSql.Proofs.Predicate.Merge

/-!
# Predicates without text

A predicate has text exactly if one of the calls that built it brings a real condition, through
groups and merges. So the emptiness test of a statement and the text that is written agree.

Results:
* `isEmpty_ofCalls`: when a predicate built by calls has text.
-/

namespace ParamSql.Predicate

variable {α : Type}

open Condition (EveryOf InWords formulas)
open Call (IsValid AllValid isReal anyReal)

theorem fold_formulas_eq_none_iff (p : Predicate α) :
    Formula.fold (formulas p.conditions) = none ↔ formulas p.conditions = [] :=
  Junction.fold_eq_none_iff _

theorem formulas_group_eq_nil_iff (p inner : Predicate α) (junction : Junction) :
    formulas (p.group junction inner).conditions = [] ↔
      formulas p.conditions = [] ∧ formulas inner.conditions = [] := by
  rw [← fold_formulas_eq_none_iff inner, group, formulas_add, List.append_eq_nil_iff,
    Option.toList_eq_nil_iff, Option.map_eq_none_iff, Condition.formula]

theorem formulas_merge_eq_nil_iff {p other : Predicate α} (hp : EveryOf InWords p.conditions)
    (ho : EveryOf InWords other.conditions) :
    formulas (p.merge other).conditions = [] ↔
      formulas p.conditions = [] ∧ formulas other.conditions = [] := by
  obtain ⟨added, hadded, -, -, hfold, -⟩ := conditions_merge hp ho
  have hnil : formulas added = [] ↔ formulas other.conditions = [] := by
    rw [← fold_formulas_eq_none_iff other, ← formula, ← hfold]
    exact (Junction.fold_eq_none_iff _).symm
  rw [hadded, Condition.formulas_append, List.append_eq_nil_iff, hnil]

/-- A call that brings a condition of its own. -/
theorem formulas_single_eq_nil_iff (p : Predicate α) {call : Call α} (h : call.IsValid)
    (hm : call.IsMergeless) : formulas (p.apply call).conditions = [] ↔
      formulas p.conditions = [] ∧ call.isReal = false := by
  rw [formulas_apply p call h hm, List.append_eq_nil_iff, Option.toList_eq_nil_iff,
    Call.clause_eq_none_iff]

mutual

/-- A call brings text exactly if it is a real condition. -/
theorem formulas_apply_eq_nil_iff : ∀ (p : Predicate α) (call : Call α),
    EveryOf InWords p.conditions → call.IsValid →
    (formulas (p.apply call).conditions = [] ↔
      formulas p.conditions = [] ∧ call.isReal = false)
  | p, .equal _ _ _, _, h => formulas_single_eq_nil_iff p h trivial
  | p, .equalAll _, _, h => formulas_single_eq_nil_iff p h trivial
  | p, .oneOf _ _ _, _, h => formulas_single_eq_nil_iff p h trivial
  | p, .noneOf _ _, _, h => formulas_single_eq_nil_iff p h trivial
  | p, .raw _ _, _, h => formulas_single_eq_nil_iff p h trivial
  | p, .template _ _, _, h => formulas_single_eq_nil_iff p h trivial
  | p, .all, _, h => formulas_single_eq_nil_iff p h trivial
  | p, .group junction calls, _, h => by
    have hinner := formulas_applyAll_eq_nil_iff ∅ calls trivial h
    rw [isReal, apply, formulas_group_eq_nil_iff, hinner]
    exact and_congr Iff.rfl (and_iff_right rfl)
  | p, .merge calls, hp, h => by
    have hinner := formulas_applyAll_eq_nil_iff ∅ calls trivial h
    rw [isReal, apply, ← ofCalls, formulas_merge_eq_nil_iff hp (ofCalls_inWords calls), ofCalls,
      hinner]
    exact and_congr Iff.rfl (and_iff_right rfl)

theorem formulas_applyAll_eq_nil_iff : ∀ (p : Predicate α) (calls : List (Call α)),
    EveryOf InWords p.conditions → AllValid calls →
    (formulas (p.applyAll calls).conditions = [] ↔
      formulas p.conditions = [] ∧ anyReal calls = false)
  | p, [], _, _ => by simp [anyReal]
  | p, call :: calls, hp, h => by
    have hnext := everyOf_apply call hp (adds_inWords call)
    rw [applyAll_cons, formulas_applyAll_eq_nil_iff (p.apply call) calls hnext h.2,
      formulas_apply_eq_nil_iff p call hp h.1, anyReal, Bool.or_eq_false_iff, and_assoc]

end

/-- A predicate has text exactly if one of its calls is a real condition. -/
theorem isEmpty_ofCalls {calls : List (Call α)} (h : AllValid calls) :
    (ofCalls calls).isEmpty = false ↔ anyReal calls = true := by
  have hnil : formulas (ofCalls calls).conditions = [] ↔ anyReal calls = false :=
    (formulas_applyAll_eq_nil_iff ∅ calls trivial h).trans (and_iff_right rfl)
  have hempty := (isEmpty_iff (ofCalls_inWords calls)).trans hnil
  rw [← Bool.not_eq_true, hempty, Bool.not_eq_false]

end ParamSql.Predicate
