import ParamSql.Proofs.Predicate.Calls

/-!
# What a predicate built by calls says

`Call.clause` is what a call says, in terms of what the caller gives, and `Call.meaning` ties the
clauses of calls in order; the calls of a group are a condition of their own. The text that is
compiled is read as that and as nothing else.

Results:
* `formulas_applyAll`: calls add what they say, one after the other.
* `clause_eq_none_iff`: a call says nothing exactly if it is not a real condition.
* `reading_of_calls`: the one reading of a compiled predicate.
-/

namespace ParamSql.Predicate

variable {α : Type}

open Condition (EveryOf InWords formula formulas formulas_append)

namespace Call

/-! ## What calls say -/

mutual

/-- What a call says, with the junction that ties it; nothing if it has no text. -/
def clause : Call α → Option (Junction × Formula α)
  | .equal junction column v => some (junction, .test (.equal column.chars v))
  | .equalAll columns =>
    (Formula.conjunction (columns.entries.map fun entry =>
      .test (.equal entry.1.toList entry.2))).map (.and, ·)
  | .oneOf junction column vs =>
    some (junction, if vs.isEmpty then .const false else .test (.among column.chars vs false))
  | .noneOf column vs =>
    some (.and, if vs.isEmpty then .const true else .test (.among column.chars vs true))
  | .raw junction sql =>
    if sql = "" then none else some (junction, .test (.words [.text sql]))
  | .template sql vs =>
    if sql = "" then none else some (.and, .test (.words (Template.parts sql vs)))
  | .all => some (.and, .const true)
  | .group junction calls => (Formula.fold (clauses calls)).map (junction, ·)
  | .merge calls => (Formula.fold (clauses calls)).map (.and, ·)

/-- What calls say that have text, in order. -/
def clauses : List (Call α) → List (Junction × Formula α)
  | [] => []
  | call :: calls => (clause call).toList ++ clauses calls

end

/-- What calls say together: each clause is tied to all those before it. -/
def meaning (calls : List (Call α)) : Option (Formula α) := Formula.fold (clauses calls)

mutual

/-- The call brings a condition that has text. -/
def isReal : Call α → Bool
  | .equalAll columns => !columns.isEmpty
  | .raw _ sql => sql ≠ ""
  | .template sql _ => sql ≠ ""
  | .group _ calls => anyReal calls
  | .merge calls => anyReal calls
  | _ => true

/-- One of the calls brings a condition that has text. -/
def anyReal : List (Call α) → Bool
  | [] => false
  | call :: calls => isReal call || anyReal calls

end

mutual

/-- No other predicate is merged, in groups neither. -/
def IsMergeless : Call α → Prop
  | .group _ calls => AllMergeless calls
  | .merge _ => False
  | _ => True

/-- None of the calls merges another predicate. -/
def AllMergeless : List (Call α) → Prop
  | [] => True
  | call :: calls => IsMergeless call ∧ AllMergeless calls

end

theorem clauses_append (first second : List (Call α)) :
    clauses (first ++ second) = clauses first ++ clauses second := by
  induction first with
  | nil => rfl
  | cons call calls ih => rw [List.cons_append, clauses, clauses, ih, List.append_assoc]

mutual

/-- A call says nothing exactly if it is not a real condition. -/
theorem clause_eq_none_iff : ∀ call : Call α, call.clause = none ↔ call.isReal = false
  | .equal _ _ _ => by simp [clause, isReal]
  | .equalAll columns => by
    cases h : columns.entries <;>
      simp [clause, isReal, OrderedMap.isEmpty, Formula.conjunction, h]
  | .oneOf _ _ _ => by simp [clause, isReal]
  | .noneOf _ _ => by simp [clause, isReal]
  | .raw _ sql => by simp [clause, isReal]
  | .template sql _ => by simp [clause, isReal]
  | .all => by simp [clause, isReal]
  | .group _ calls => by
    rw [clause, isReal, Option.map_eq_none_iff, ← clauses_eq_nil_iff calls]
    exact Junction.fold_eq_none_iff (clauses calls)
  | .merge calls => by
    rw [clause, isReal, Option.map_eq_none_iff, ← clauses_eq_nil_iff calls]
    exact Junction.fold_eq_none_iff (clauses calls)

theorem clauses_eq_nil_iff : ∀ calls : List (Call α), clauses calls = [] ↔ anyReal calls = false
  | [] => by simp [clauses, anyReal]
  | call :: calls => by
    rw [clauses, anyReal, List.append_eq_nil_iff, Option.toList_eq_nil_iff, Bool.or_eq_false_iff,
      clause_eq_none_iff call, clauses_eq_nil_iff calls]

end

/-- A call that says nothing has no effect on what is said, wherever it stands. -/
theorem meaning_skip {call : Call α} (h : call.isReal = false) (before after : List (Call α)) :
    meaning (before ++ call :: after) = meaning (before ++ after) := by
  have hc : call.clause = none := (clause_eq_none_iff call).2 h
  rw [meaning, meaning, clauses_append, clauses_append, clauses, hc]
  rfl

end Call

open Call (AllValid AllMergeless clause clauses meaning)

/-! ## Conditions say what their calls say -/

theorem formulas_add (p : Predicate α) (junction : Junction) (c : Condition α) :
    formulas (p.add junction c).conditions =
      formulas p.conditions ++ (c.formula.map (junction, ·)).toList := by
  rw [add, formulas_append, formulas, formulas, List.append_nil]

theorem formulas_column (p : Predicate α) (junction : Junction) {name : ColumnName}
    (h : name.Resolves) {f : Identifier → Condition α} {g : List Char → Formula α}
    (hf : ∀ x : Identifier, (f x).formula = some (g x.chars)) :
    formulas (p.addResult junction ((column name).map f)).conditions =
      formulas p.conditions ++ [(junction, g name.chars)] := by
  obtain ⟨x, hx⟩ := h
  rw [column_eq_ok_iff.2 hx, ← ColumnName.chars_of_resolve hx]
  refine (formulas_add p junction (f x)).trans ?_
  rw [hf x]
  rfl

theorem comparisons_of_entries {entries : List (String × α)} {pairs : List (Identifier × α)}
    (h : entries.mapM pairOf = .ok pairs) : pairs.map Condition.comparison =
      entries.map fun entry => .test (.equal entry.1.toList entry.2) := by
  refine map_of_mapM (fun entry pair hpair => ?_) h
  obtain ⟨hx, hv⟩ := pairOf_eq_ok_iff.1 hpair
  rw [Condition.comparison, ColumnName.chars_of_resolve hx, hv]
  rfl

theorem formulas_equalAll (p : Predicate α) {columns : OrderedMap α}
    (h : ∀ entry ∈ columns.entries, (ColumnName.text entry.1).Resolves) :
    formulas (p.equalAll columns).conditions =
      formulas p.conditions ++ (clause (.equalAll columns)).toList := by
  obtain ⟨pairs, hpairs⟩ := exists_mapM_eq_ok_iff.2 fun entry hentry =>
    exists_pairOf_iff.2 (h entry hentry)
  rw [equalAll, hpairs, clause, ← comparisons_of_entries hpairs]
  exact formulas_add p .and (.equal pairs)

theorem formula_raw (sql : String) :
    (Condition.raw (.raw sql) : Condition α).formula =
      if sql = "" then none else some (.test (.words [.text sql])) := by
  by_cases h : sql = "" <;>
    simp [formula, Phrase.isEmpty, Phrase.pieces, Piece.ofRaw, Piece.part?, h]

theorem formulas_raw (p : Predicate α) (junction : Junction) (sql : String) :
    formulas (p.raw junction sql).conditions =
      formulas p.conditions ++ (clause (.raw junction sql : Call α)).toList := by
  rw [raw, formulas_add, formula_raw, clause]
  split <;> rfl

theorem formulas_template (p : Predicate α) {sql : String} {values : List α}
    (h : Template.placeholders sql.toList = values.length) :
    formulas (p.template sql values).conditions =
      formulas p.conditions ++ (clause (.template sql values)).toList := by
  obtain ⟨phrase, hphrase⟩ := Option.ne_none_iff_exists'.1
    (mt (Template.phrase?_eq_none_iff sql values).1 (not_not_intro h))
  have hf : (Condition.raw phrase).formula =
      if sql = "" then none else some (.test (.words (Template.parts sql values))) := by
    rw [formula, Template.parts_phrase? hphrase]
    exact if_congr (Template.isEmpty_phrase? hphrase) rfl rfl
  rw [template, hphrase, clause]
  refine (formulas_add p .and (.raw phrase)).trans ?_
  rw [hf]
  split <;> rfl

mutual

/-- A call adds what it says. -/
theorem formulas_apply : ∀ (p : Predicate α) (call : Call α), call.IsValid → call.IsMergeless →
    formulas (p.apply call).conditions = formulas p.conditions ++ call.clause.toList
  | p, .equal junction column v, h, _ =>
    formulas_column p junction h (g := fun cs => .test (.equal cs v)) fun _ => rfl
  | p, .equalAll columns, h, _ => formulas_equalAll p h
  | p, .oneOf junction column vs, h, _ =>
    formulas_column p junction h
      (g := fun cs => if vs.isEmpty then .const false else .test (.among cs vs false)) fun _ => rfl
  | p, .noneOf column vs, h, _ =>
    formulas_column p .and h
      (g := fun cs => if vs.isEmpty then .const true else .test (.among cs vs true)) fun _ => rfl
  | p, .raw junction sql, _, _ => formulas_raw p junction sql
  | p, .template sql vs, h, _ => formulas_template p h
  | p, .all, _, _ => formulas_add p .and .all
  | p, .group junction calls, h, hm => by
    have hinner := formulas_applyAll ∅ calls h hm
    refine (formulas_add _ junction (.group (applyAll ∅ calls).conditions)).trans ?_
    rw [formula, hinner, clause]
    rfl
  | _, .merge _, _, hm => hm.elim

/-- Calls add what they say, one after the other. -/
theorem formulas_applyAll : ∀ (p : Predicate α) (calls : List (Call α)), AllValid calls →
    AllMergeless calls →
    formulas (p.applyAll calls).conditions = formulas p.conditions ++ clauses calls
  | p, [], _, _ => by simp [clauses]
  | p, call :: calls, h, hm => by
    rw [applyAll_cons, formulas_applyAll (p.apply call) calls h.2 hm.2,
      formulas_apply p call h.1 hm.1, clauses, List.append_assoc]

end

/-! ## The text of a predicate -/

/-- The text of a predicate that compiles is read in one way: as its clauses, each tied to all
those before it. Where no clause has text, there is no text; and a call that is no real condition
has no effect, wherever it stands. -/
theorem reading_of_calls (calls : List (Call α)) (hm : AllMergeless calls) {phrase : Phrase α}
    (h : (ofCalls calls).compile = .ok phrase) :
    (phrase.symbols 0).flatMap Symbol.chars = phrase.query.sql.toList ∧
      (∀ f, phrase.ReadsAs f ↔ meaning calls = some f) ∧
      (phrase.query.sql = "" ↔ meaning calls = none) ∧
      ∀ before silent after, calls = before ++ silent :: after → silent.isReal = false →
        meaning calls = meaning (before ++ after) := by
  obtain ⟨hfault, rfl⟩ := (compile_eq_ok_iff _ _).1 h
  have hvalid : AllValid calls := (fault_ofCalls calls).1 hfault
  have hformulas : formulas (ofCalls calls).conditions = clauses calls :=
    formulas_applyAll ∅ calls hvalid hm
  have hsays := says_phrase (ofCalls_inWords calls)
  rw [hformulas] at hsays
  refine ⟨?_, hsays.readsAs_iff, ?_, ?_⟩
  · rw [Phrase.text_symbols, Phrase.query_eq, String.toList_ofList]
  · exact (Phrase.sql_eq_empty_iff _).trans hsays.eq_none_iff.symm
  · rintro before silent after rfl hsilent
    exact Call.meaning_skip hsilent before after

/-- Calls with an OR in front of an AND, and a group without conditions between them. -/
def mixedCalls : List (Call Nat) :=
  [.equal .or (.text "a") 1, .group .or [], .equal .or (.text "b") 2,
    .oneOf .and (.text "c.\"d\"") [3, 4]]

theorem reading_of_mixedCalls :
    AllMergeless mixedCalls ∧ (ofCalls mixedCalls).compile = .ok (ofCalls mixedCalls).phrase ∧
      (ofCalls mixedCalls).phrase.ReadsAs
        (.and (.or (.test (.equal "a".toList 1)) (.test (.equal "b".toList 2)))
          (.test (.among "c.\"d\"".toList [3, 4] false))) := by
  have hm : AllMergeless mixedCalls := ⟨trivial, trivial, trivial, trivial, trivial⟩
  have hc : (ofCalls mixedCalls).compile = .ok (ofCalls mixedCalls).phrase := rfl
  exact ⟨hm, hc, ((reading_of_calls mixedCalls hm hc).2.1 _).2 rfl⟩

end ParamSql.Predicate
