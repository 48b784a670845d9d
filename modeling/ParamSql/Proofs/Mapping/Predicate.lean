import ParamSql.Predicate.Call
import ParamSql.Proofs.Checks
import ParamSql.Proofs.Mapping.Phrase

/-!
# Predicates with other values

The calls that build a predicate can be given other values: the same predicate is built, with the
values replaced, and the same fault is recorded.

Results:
* `Condition.phrase_map`: a condition with replaced values is written with replaced values.
* `Predicate.map_apply`, `Predicate.map_applyAll`: calls with replaced values build the predicate
  with replaced values.
* `Predicate.compile_map`: the predicate is refused for the same fault, or written with replaced
  values.
-/

namespace ParamSql

variable {α β : Type}

namespace Condition

mutual

/-- The condition with replaced values. -/
def map (f : α → β) : Condition α → Condition β
  | .equal pairs => .equal (pairs.map fun pair => (pair.1, f pair.2))
  | .among column values negated => .among column (values.map f) negated
  | .raw phrase => .raw (phrase.map f)
  | .all => .all
  | .group conditions => .group (mapAll f conditions)

/-- The conditions with replaced values. -/
def mapAll (f : α → β) : List (Junction × Condition α) → List (Junction × Condition β)
  | [] => []
  | (junction, condition) :: rest => (junction, map f condition) :: mapAll f rest

end

theorem mapAll_eq (f : α → β) (conditions : List (Junction × Condition α)) :
    mapAll f conditions = conditions.map fun c => (c.1, c.2.map f) := by
  induction conditions with
  | nil => rfl
  | cons c rest ih => rw [mapAll, ih, List.map_cons]

end Condition

section

variable (f : α → β)

/-! ## Writing a list of conditions -/

namespace Joined

/-- A written condition with replaced values. -/
def mapPair (c : Junction × Phrase α) : Junction × Phrase β := (c.1, c.2.map f)

/-- Written conditions with replaced values. -/
def map (j : Joined α) : Joined β := ⟨j.phrase.map f, j.hasOr⟩

theorem operand_map (j : Joined α) : (j.map f).operand = j.operand.map f := by
  obtain ⟨phrase, hasOr⟩ := j
  cases hasOr with
  | true => exact (Phrase.map_parens f phrase).symm
  | false => rfl

theorem add_map (j : Option (Joined α)) (c : Junction × Phrase α) :
    add (j.map (map f)) (mapPair f c) = (add j c).map (map f) := by
  obtain ⟨junction, next⟩ := c
  cases j with
  | none => rfl
  | some j =>
    cases junction with
    | and =>
      have hand : (Phrase.seq " AND " [j.operand, next]).map f =
          .seq " AND " [(j.map f).operand, next.map f] := by
        rw [Phrase.map_seq, operand_map]
        rfl
      exact congrArg (fun phrase => some (Joined.mk phrase false)) hand.symm
    | or => rfl

theorem phraseOf_map (conditions : List (Junction × Phrase α)) :
    phraseOf (conditions.map (mapPair f)) = (phraseOf conditions).map f := by
  have hfilter : (conditions.map (mapPair f)).filter (fun c => !c.2.isEmpty) =
      (conditions.filter fun c => !c.2.isEmpty).map (mapPair f) := by
    rw [List.filter_map]
    refine congrArg _ (List.filter_congr fun c _ => ?_)
    exact congrArg not (Phrase.isEmpty_map f c.2)
  have hfold : ((conditions.filter fun c => !c.2.isEmpty).map (mapPair f)).foldl add none =
      ((conditions.filter fun c => !c.2.isEmpty).foldl add none).map (map f) := by
    rw [List.foldl_map]
    show List.foldl (fun j c => add j (mapPair f c)) (Option.map (map f) none) _ = _
    exact List.foldl_hom (Option.map (map f)) fun j c => add_map f j c
  rw [phraseOf, phraseOf, hfilter, hfold]
  cases (conditions.filter fun c => !c.2.isEmpty).foldl add none <;> rfl

end Joined

/-! ## Conditions -/

namespace Condition

theorem equalities_map (pairs : List (Identifier × α)) :
    equalities (pairs.map fun pair => (pair.1, f pair.2)) = (equalities pairs).map f := by
  rcases pairs with - | ⟨first, - | ⟨second, rest⟩⟩
  · rfl
  · rfl
  · have hall : (rest.map fun pair => (pair.1, f pair.2)).map equality =
        (rest.map equality).map (Phrase.map f) := by
      rw [List.map_map, List.map_map]
      rfl
    simp only [equalities, List.map_cons, Phrase.map_parens, Phrase.map_seq, hall]
    rfl

theorem membership_map (column : Identifier) (values : List α) (negated : Bool) :
    membership column (values.map f) negated = (membership column values negated).map f := by
  rw [membership, membership, List.isEmpty_map]
  by_cases h : values.isEmpty = true
  · rw [if_pos h, if_pos h, Phrase.map_keyword]
  · rw [if_neg h, if_neg h, ← Phrase.map_values, ← Phrase.map_listed, Phrase.map_concat]
    rfl

theorem grouped_map (body : Phrase α) : grouped (body.map f) = (grouped body).map f := by
  rw [grouped, grouped, Phrase.isEmpty_map]
  by_cases h : body.isEmpty = true
  · rw [if_pos h, if_pos h]
  · rw [if_neg h, if_neg h, Phrase.map_parens]

mutual

/-- A condition with replaced values is written with replaced values. -/
theorem phrase_map : ∀ c : Condition α, (c.map f).phrase = c.phrase.map f
  | .equal pairs => equalities_map f pairs
  | .among column values negated => membership_map f column values negated
  | .raw _ => rfl
  | .all => rfl
  | .group conditions => by
    rw [map, phrase, phrase, phrases_map conditions, Joined.phraseOf_map, grouped_map]

theorem phrases_map : ∀ conditions : List (Junction × Condition α),
    phrases (mapAll f conditions) = (phrases conditions).map (Joined.mapPair f)
  | [] => rfl
  | (junction, condition) :: rest => by
    rw [mapAll, phrases, phrases, phrase_map condition, phrases_map rest]
    rfl

end

end Condition

/-! ## Predicates -/

namespace Predicate

/-- The predicate with replaced values, and the fault that it has. -/
def map (p : Predicate α) : Predicate β := ⟨Condition.mapAll f p.conditions, p.fault⟩

theorem phrase_map (p : Predicate α) : (p.map f).phrase = p.phrase.map f := by
  rw [phrase, phrase, map, Condition.phrases_map, Joined.phraseOf_map]

theorem isEmpty_map (p : Predicate α) : (p.map f).isEmpty = p.isEmpty := by
  rw [isEmpty, isEmpty, phrase_map, Phrase.isEmpty_map]

/-- A predicate with replaced values is refused for the same fault. -/
theorem compile_map (p : Predicate α) : (p.map f).compile = p.compile.map (Phrase.map f) := by
  rw [compile, compile, phrase_map, map]
  cases p.fault <;> rfl

theorem whereClause_map (p : Predicate α) :
    (p.map f).whereClause = p.whereClause.map (Phrase.map f) := by
  rw [whereClause, whereClause, compile_map]
  cases p.compile with
  | error cause => rfl
  | ok phrase => exact congrArg Except.ok (Phrase.map_ledBy f "WHERE " phrase).symm

theorem require_map (p : Predicate α) (cause : Rejection) :
    (p.map f).require cause = p.require cause := by
  rw [require, require, isEmpty_map]

theorem hasOr_map (p : Predicate α) : (p.map f).hasOr = p.hasOr := by
  rw [hasOr, hasOr, map, Condition.mapAll_eq, ← List.map_tail, List.any_map]
  rfl

/-! ## Building -/

theorem map_add (p : Predicate α) (junction : Junction) (condition : Condition α) :
    (p.add junction condition).map f = (p.map f).add junction (condition.map f) := by
  simp only [add, map, Condition.mapAll_eq, List.map_append, List.map_singleton]

theorem map_addResult (p : Predicate α) (junction : Junction)
    (result : Except BuildFault (Condition α)) :
    (p.addResult junction result).map f =
      (p.map f).addResult junction (result.map (Condition.map f)) := by
  cases result with
  | error fault => rfl
  | ok condition => exact map_add f p junction condition

/-- A condition on a column. -/
theorem map_column (p : Predicate α) (junction : Junction) (name : ColumnName)
    (condition : Identifier → Condition α) :
    (p.addResult junction ((column name).map condition)).map f =
      (p.map f).addResult junction ((column name).map fun x => (condition x).map f) := by
  rw [map_addResult]
  cases column name <;> rfl

theorem map_equalAll (p : Predicate α) (columns : OrderedMap α) :
    (p.equalAll columns).map f = (p.map f).equalAll (columns.map f) := by
  have hpair (entry : String × α) : pairOf (entry.1, f entry.2) =
      (pairOf entry).map fun pair => (pair.1, f pair.2) := by
    rw [pairOf, pairOf]
    cases column (.text entry.1) <;> rfl
  rw [equalAll, equalAll, map_addResult, OrderedMap.entries_map, mapM_hom hpair]
  cases columns.entries.mapM pairOf <;> rfl

theorem map_template (p : Predicate α) (sql : String) (values : List α) :
    (p.template sql values).map f = (p.map f).template sql (values.map f) := by
  rw [template, template, map_addResult, Template.phrase?_map, List.length_map]
  cases Template.phrase? sql values <;> rfl

theorem map_group (p inner : Predicate α) (junction : Junction) :
    (p.group junction inner).map f = (p.map f).group junction (inner.map f) :=
  map_add f { p with fault := p.fault.or inner.fault } junction (.group inner.conditions)

theorem map_merge (p other : Predicate α) :
    (p.merge other).map f = (p.map f).merge (other.map f) := by
  have hadded : Condition.mapAll f (if p.isEmpty then other.conditions
      else if other.hasOr then [(.and, .group other.conditions)]
      else other.conditions.map fun c => (.and, c.2)) =
      if p.isEmpty then (other.map f).conditions
      else if other.hasOr then [(.and, .group (other.map f).conditions)]
      else (other.map f).conditions.map fun c => (.and, c.2) := by
    split
    · rfl
    · split
      · rfl
      · simp only [map, Condition.mapAll_eq, List.map_map]
        rfl
  rw [merge, merge, isEmpty_map, hasOr_map, ← hadded, map]
  simp only [map, Condition.mapAll_eq, List.map_append]

namespace Call

mutual

/-- The call with replaced values. -/
def map : Call α → Call β
  | .equal junction column value => .equal junction column (f value)
  | .equalAll columns => .equalAll (columns.map f)
  | .oneOf junction column values => .oneOf junction column (values.map f)
  | .noneOf column values => .noneOf column (values.map f)
  | .raw junction sql => .raw junction sql
  | .template sql values => .template sql (values.map f)
  | .all => .all
  | .group junction calls => .group junction (mapAll calls)
  | .merge calls => .merge (mapAll calls)

/-- The calls with replaced values. -/
def mapAll : List (Call α) → List (Call β)
  | [] => []
  | call :: calls => map call :: mapAll calls

end

theorem mapAll_eq (calls : List (Call α)) : mapAll f calls = calls.map (map f) := by
  induction calls with
  | nil => rfl
  | cons call calls ih => rw [mapAll, ih, List.map_cons]

end Call

mutual

/-- A call with replaced values makes the predicate with replaced values. -/
theorem map_apply : ∀ (p : Predicate α) (call : Call α),
    (p.apply call).map f = (p.map f).apply (call.map f)
  | p, .equal junction name v => map_column f p junction name fun x => .equal [(x, v)]
  | p, .equalAll columns => map_equalAll f p columns
  | p, .oneOf junction name values => map_column f p junction name fun x => .among x values false
  | p, .noneOf name values => map_column f p .and name fun x => .among x values true
  | p, .raw junction sql => map_add f p junction (.raw (.raw sql))
  | p, .template sql values => map_template f p sql values
  | p, .all => map_add f p .and .all
  | p, .group junction calls => by
    rw [apply, Call.map, apply, map_group, map_applyAll ∅ calls]
    rfl
  | p, .merge calls => by
    rw [apply, Call.map, apply, map_merge, map_applyAll ∅ calls]
    rfl

/-- Calls with replaced values make the predicate with replaced values. -/
theorem map_applyAll : ∀ (p : Predicate α) (calls : List (Call α)),
    (p.applyAll calls).map f = (p.map f).applyAll (Call.mapAll f calls)
  | _, [] => rfl
  | p, call :: calls => by
    rw [applyAll_cons, Call.mapAll, applyAll_cons, map_applyAll (p.apply call) calls,
      map_apply p call]

end

theorem map_ofCalls (calls : List (Call α)) :
    (ofCalls calls).map f = ofCalls (calls.map (Call.map f)) := by
  rw [ofCalls, map_applyAll, Call.mapAll_eq]
  rfl

end Predicate

end

end ParamSql
