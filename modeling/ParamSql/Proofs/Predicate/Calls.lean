import ParamSql.Predicate.Call
import ParamSql.Proofs.Checks
import ParamSql.Proofs.Predicate.Reading
import ParamSql.Proofs.Reading.Template

/-!
# What calls add to a predicate

A call whose names are identifiers, and whose templates have a value for each placeholder, adds its
condition; any other call records a fault and adds nothing. What holds of every condition that a
call can add holds of every condition of a predicate that is built by calls.

Results:
* `fault_applyAll`: a fault is recorded exactly if one was or a call cannot be used.
* `everyOf_applyAll`: the conditions of a predicate are those that its calls add.
* `formulas_applyAll`: what conditions say is found call by call.
-/

namespace ParamSql

variable {α : Type}

/-! ## Names -/

/-- The name of a column as it is written. -/
def ColumnName.chars : ColumnName → List Char
  | .text name => name.toList
  | .known x => x.chars

/-- The name of a column is an identifier. -/
def ColumnName.Resolves (name : ColumnName) : Prop := ∃ x, name.resolve = .ok x

theorem Identifier.chars_of_parse {input : String} {x : Identifier}
    (h : Identifier.parse input = .ok x) : x.chars = input.toList := by
  rw [← Identifier.sql_of_parse h, Identifier.sql, String.toList_ofList]

theorem ColumnName.chars_of_resolve {name : ColumnName} {x : Identifier}
    (h : name.resolve = .ok x) : x.chars = name.chars := by
  cases name with
  | text name => exact Identifier.chars_of_parse h
  | known y =>
    cases h
    rfl

namespace Predicate

open Condition (Every EveryOf formulas formulas_append)

/-! ## Calls that can be used -/

namespace Call

mutual

/-- The names of a call are identifiers, and its templates have a value for each placeholder. -/
def IsValid : Call α → Prop
  | .equal _ column _ => column.Resolves
  | .equalAll columns => ∀ entry ∈ columns.entries, (ColumnName.text entry.1).Resolves
  | .oneOf _ column _ => column.Resolves
  | .noneOf column _ => column.Resolves
  | .raw _ _ => True
  | .template sql values => Template.placeholders sql.toList = values.length
  | .all => True
  | .group _ calls => AllValid calls
  | .merge calls => AllValid calls

/-- All calls can be used. -/
def AllValid : List (Call α) → Prop
  | [] => True
  | call :: calls => IsValid call ∧ AllValid calls

end

mutual

/-- Every single condition that the call can add has a property. -/
def Adds (P : Condition α → Prop) : Call α → Prop
  | .equal _ column v => ∀ x, column.resolve = .ok x → P (.equal [(x, v)])
  | .equalAll columns => ∀ pairs, columns.entries.mapM pairOf = .ok pairs → P (.equal pairs)
  | .oneOf _ column vs => ∀ x, column.resolve = .ok x → P (.among x vs false)
  | .noneOf column vs => ∀ x, column.resolve = .ok x → P (.among x vs true)
  | .raw _ sql => P (.raw (.raw sql))
  | .template sql vs => ∀ phrase, Template.phrase? sql vs = some phrase → P (.raw phrase)
  | .all => P .all
  | .group _ calls => AddsAll P calls
  | .merge calls => AddsAll P calls

/-- Every single condition that the calls can add has a property. -/
def AddsAll (P : Condition α → Prop) : List (Call α) → Prop
  | [] => True
  | call :: calls => Adds P call ∧ AddsAll P calls

end

theorem allValid_iff (calls : List (Call α)) :
    AllValid calls ↔ ∀ call ∈ calls, call.IsValid := by
  induction calls with
  | nil => simp [AllValid]
  | cons call calls ih => rw [AllValid, ih, List.forall_mem_cons]

theorem addsAll_iff {P : Condition α → Prop} (calls : List (Call α)) :
    AddsAll P calls ↔ ∀ call ∈ calls, call.Adds P := by
  induction calls with
  | nil => simp [AddsAll]
  | cons call calls ih => rw [AddsAll, ih, List.forall_mem_cons]

end Call

open Call (IsValid AllValid Adds AddsAll)

theorem column_eq_ok_iff {name : ColumnName} {x : Identifier} :
    column name = .ok x ↔ name.resolve = .ok x := mapError_eq_ok_iff

theorem pairOf_eq_ok_iff {entry : String × α} {pair : Identifier × α} :
    pairOf entry = .ok pair ↔
      (ColumnName.text entry.1).resolve = .ok pair.1 ∧ pair.2 = entry.2 := by
  rw [pairOf, map_eq_ok_iff]
  simp only [column_eq_ok_iff]
  constructor
  · rintro ⟨x, hx, rfl⟩
    exact ⟨hx, rfl⟩
  · rintro ⟨hx, hv⟩
    exact ⟨pair.1, hx, Prod.ext rfl hv.symm⟩

theorem exists_pairOf_iff {entry : String × α} :
    (∃ pair, pairOf entry = .ok pair) ↔ (ColumnName.text entry.1).Resolves := by
  rw [pairOf, exists_map_eq_ok_iff]
  simp only [column_eq_ok_iff, ColumnName.Resolves]

/-! ## Faults -/

theorem fault_addResult (p : Predicate α) (junction : Junction)
    (result : Except BuildFault (Condition α)) :
    (p.addResult junction result).fault = none ↔ p.fault = none ∧ ∃ c, result = .ok c := by
  cases result with
  | ok c => simp [addResult, add]
  | error fault => simp [addResult, record]

theorem fault_column (p : Predicate α) (junction : Junction) (name : ColumnName)
    (f : Identifier → Condition α) :
    (p.addResult junction ((column name).map f)).fault = none ↔
      p.fault = none ∧ name.Resolves := by
  rw [fault_addResult, exists_map_eq_ok_iff]
  simp only [column_eq_ok_iff, ColumnName.Resolves]

theorem fault_equalAll (p : Predicate α) (columns : OrderedMap α) :
    (p.equalAll columns).fault = none ↔
      p.fault = none ∧ ∀ entry ∈ columns.entries, (ColumnName.text entry.1).Resolves := by
  rw [equalAll, fault_addResult, exists_map_eq_ok_iff, exists_mapM_eq_ok_iff]
  simp only [exists_pairOf_iff]

theorem fault_template (p : Predicate α) (sql : String) (values : List α) :
    (p.template sql values).fault = none ↔
      p.fault = none ∧ Template.placeholders sql.toList = values.length := by
  rw [template, fault_addResult]
  cases h : Template.phrase? sql values with
  | none => simp [(Template.phrase?_eq_none_iff sql values).1 h]
  | some phrase => simp [(Template.phrase?_eq_some_iff.1 h).1]

mutual

/-- A call records a fault exactly if it cannot be used. -/
theorem fault_apply : ∀ (p : Predicate α) (call : Call α),
    (p.apply call).fault = none ↔ p.fault = none ∧ call.IsValid
  | p, .equal junction column v => fault_column p junction column _
  | p, .equalAll columns => fault_equalAll p columns
  | p, .oneOf junction column vs => fault_column p junction column _
  | p, .noneOf column vs => fault_column p .and column _
  | p, .raw junction sql => (and_iff_left trivial).symm
  | p, .template sql vs => fault_template p sql vs
  | p, .all => (and_iff_left trivial).symm
  | p, .group junction calls => by
    have hinner := (fault_applyAll ∅ calls).trans (and_iff_right rfl)
    exact Option.or_eq_none_iff.trans (and_congr Iff.rfl hinner)
  | p, .merge calls => by
    have hinner := (fault_applyAll ∅ calls).trans (and_iff_right rfl)
    exact Option.or_eq_none_iff.trans (and_congr Iff.rfl hinner)

/-- A fault is recorded exactly if one was or a call cannot be used. -/
theorem fault_applyAll : ∀ (p : Predicate α) (calls : List (Call α)),
    (p.applyAll calls).fault = none ↔ p.fault = none ∧ AllValid calls
  | p, [] => by simp [AllValid]
  | p, call :: calls => by
    rw [applyAll_cons, fault_applyAll (p.apply call) calls, fault_apply p call, AllValid, and_assoc]

end

theorem fault_ofCalls (calls : List (Call α)) :
    (ofCalls calls).fault = none ↔ AllValid calls :=
  (fault_applyAll ∅ calls).trans (and_iff_right rfl)

/-! ## Conditions -/

section

variable {P : Condition α → Prop}

theorem everyOf_addResult {p : Predicate α} (hp : EveryOf P p.conditions) (junction : Junction)
    {result : Except BuildFault (Condition α)} (h : ∀ c, result = .ok c → c.Every P) :
    EveryOf P (p.addResult junction result).conditions := by
  cases result with
  | ok c => exact (Condition.everyOf_append _ _).2 ⟨hp, h c rfl, trivial⟩
  | error fault => exact hp

theorem everyOf_column {p : Predicate α} (hp : EveryOf P p.conditions) (junction : Junction)
    {name : ColumnName} {f : Identifier → Condition α}
    (h : ∀ x, name.resolve = .ok x → (f x).Every P) :
    EveryOf P (p.addResult junction ((column name).map f)).conditions := by
  refine everyOf_addResult hp junction fun c hc => ?_
  obtain ⟨x, hx, rfl⟩ := map_eq_ok_iff.1 hc
  exact h x (column_eq_ok_iff.1 hx)

theorem everyOf_equalAll {p : Predicate α} (hp : EveryOf P p.conditions) {columns : OrderedMap α}
    (h : ∀ pairs, columns.entries.mapM pairOf = .ok pairs → P (.equal pairs)) :
    EveryOf P (p.equalAll columns).conditions := by
  refine everyOf_addResult hp .and fun c hc => ?_
  obtain ⟨pairs, hpairs, rfl⟩ := map_eq_ok_iff.1 hc
  exact h pairs hpairs

theorem everyOf_template {p : Predicate α} (hp : EveryOf P p.conditions) {sql : String}
    {values : List α} (h : ∀ phrase, Template.phrase? sql values = some phrase → P (.raw phrase)) :
    EveryOf P (p.template sql values).conditions := by
  refine everyOf_addResult hp .and fun c hc => ?_
  cases hphrase : Template.phrase? sql values with
  | none => simp [hphrase] at hc
  | some phrase =>
    obtain rfl : Condition.raw phrase = c := by simpa [hphrase] using hc
    exact h phrase hphrase

theorem everyOf_tied (junction : Junction) (conditions : List (Junction × Condition α)) :
    EveryOf P (conditions.map fun c => (junction, c.2)) ↔ EveryOf P conditions := by
  induction conditions with
  | nil => exact Iff.rfl
  | cons c rest ih => exact and_congr Iff.rfl ih

theorem everyOf_merge {p other : Predicate α} (hp : EveryOf P p.conditions)
    (h : EveryOf P other.conditions) : EveryOf P (p.merge other).conditions := by
  refine (Condition.everyOf_append _ _).2 ⟨hp, ?_⟩
  split
  · exact h
  · split
    · exact ⟨h, trivial⟩
    · exact (everyOf_tied .and other.conditions).2 h

mutual

/-- The conditions after a call are those before and those that the call adds. -/
theorem everyOf_apply : ∀ {p : Predicate α} (call : Call α), EveryOf P p.conditions →
    call.Adds P → EveryOf P (p.apply call).conditions
  | _, .equal junction _ _, hp, h => everyOf_column hp junction h
  | _, .equalAll _, hp, h => everyOf_equalAll hp h
  | _, .oneOf junction _ _, hp, h => everyOf_column hp junction h
  | _, .noneOf _ _, hp, h => everyOf_column hp .and h
  | _, .raw _ _, hp, h => (Condition.everyOf_append _ _).2 ⟨hp, h, trivial⟩
  | _, .template _ _, hp, h => everyOf_template hp h
  | _, .all, hp, h => (Condition.everyOf_append _ _).2 ⟨hp, h, trivial⟩
  | _, .group _ calls, hp, h =>
    (Condition.everyOf_append _ _).2 ⟨hp, everyOf_applyAll calls trivial h, trivial⟩
  | _, .merge calls, hp, h => everyOf_merge hp (everyOf_applyAll calls trivial h)

/-- The conditions of a predicate are those that its calls add. -/
theorem everyOf_applyAll : ∀ {p : Predicate α} (calls : List (Call α)), EveryOf P p.conditions →
    AddsAll P calls → EveryOf P (p.applyAll calls).conditions
  | _, [], hp, _ => hp
  | _, call :: calls, hp, h => everyOf_applyAll calls (everyOf_apply call hp h.1) h.2

end

end

mutual

theorem adds_inWords : ∀ call : Call α, call.Adds Condition.InWords
  | .equal _ _ _ => fun _ _ => trivial
  | .equalAll _ => fun _ _ => trivial
  | .oneOf _ _ _ => fun _ _ => trivial
  | .noneOf _ _ => fun _ _ => trivial
  | .raw _ sql => Template.isWords_ofRaw sql
  | .template _ _ => fun _ h => Template.isWords_phrase? h
  | .all => trivial
  | .group _ calls => addsAll_inWords calls
  | .merge calls => addsAll_inWords calls

theorem addsAll_inWords : ∀ calls : List (Call α), AddsAll Condition.InWords calls
  | [] => trivial
  | call :: calls => ⟨adds_inWords call, addsAll_inWords calls⟩

end

/-- What a caller words is written in the caller's words alone. -/
theorem ofCalls_inWords (calls : List (Call α)) :
    EveryOf Condition.InWords (ofCalls calls).conditions :=
  everyOf_applyAll calls trivial (addsAll_inWords calls)

end Predicate

end ParamSql
