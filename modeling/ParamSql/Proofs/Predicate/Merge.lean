import ParamSql.Insert
import ParamSql.Proofs.Predicate.Calls

/-!
# Merged predicates

A merged predicate says both: the conditions of the second one are all tied with AND, as they are
or as one group, so that no OR of either reaches into the other. A predicate without text is
neutral, down to the text of the other one. The filters of a conflict clause are merged one after
the other.

Results:
* `conditions_merge`: what a merge adds to the conditions of the first predicate.
* `eval_merge`: a merged predicate is true where both are.
* `phrase_merge_left`, `phrase_merge_right`: a predicate without text changes nothing.
* `merge_conjoins`: two predicates, and the filters of a conflict clause.
-/

namespace ParamSql

variable {α T : Type}

open Condition (EveryOf InWords formulas formulas_append phrases)

/-! ## Conditions tied with AND -/

namespace Junction

/-- What is tied with AND alone is true where all of it is. -/
theorem foldl_and [Lattice T] (before : Option T) {conditions : List (Junction × T)}
    (h : ∀ c ∈ conditions, c.1 = .and) :
    conditions.foldl (tie combine) before = before.merge (· ⊓ ·) (fold combine conditions) := by
  induction conditions generalizing before with
  | nil => simp
  | cons c rest ih =>
    obtain ⟨junction, a⟩ := c
    obtain rfl : junction = .and := h (junction, a) (by simp)
    have hrest : ∀ c ∈ rest, c.1 = .and := fun c hc => h c (by simp [hc])
    have htie : tie combine before (.and, a) = before.merge (· ⊓ ·) (some a) := by
      cases before <;> rfl
    have hfold : fold combine ((.and, a) :: rest) =
        (some a).merge (· ⊓ ·) (fold combine rest) := ih (some a) hrest
    have hassoc : Std.Associative (Option.merge (· ⊓ · : T → T → T)) :=
      have : Std.Associative (· ⊓ · : T → T → T) := ⟨inf_assoc⟩
      inferInstance
    rw [List.foldl_cons, ih _ hrest, htie, hfold, hassoc.assoc]

end Junction

namespace Condition

/-- The values that conditions bind, in order. -/
def values (conditions : List (Junction × Condition α)) : List α :=
  (phrases conditions).flatMap fun c => c.2.values

theorem phrases_append (first second : List (Junction × Condition α)) :
    phrases (first ++ second) = phrases first ++ phrases second := by
  induction first with
  | nil => rfl
  | cons c rest ih => rw [List.cons_append, phrases, phrases, ih, List.cons_append]

theorem values_append (first second : List (Junction × Condition α)) :
    values (first ++ second) = values first ++ values second := by
  rw [values, phrases_append, List.flatMap_append]
  rfl

theorem values_tied (junction : Junction) (conditions : List (Junction × Condition α)) :
    values (conditions.map fun c => (junction, c.2)) = values conditions := by
  induction conditions with
  | nil => rfl
  | cons c rest ih =>
    rw [List.map_cons, values, phrases, List.flatMap_cons]
    exact congrArg (c.2.phrase.values ++ ·) ih

theorem formulas_tied (junction : Junction) (conditions : List (Junction × Condition α)) :
    formulas (conditions.map fun c => (junction, c.2)) =
      (formulas conditions).map fun d => (junction, d.2) := by
  induction conditions with
  | nil => rfl
  | cons c rest ih =>
    rw [List.map_cons, formulas, formulas, ih, List.map_append]
    cases c.2.formula <;> rfl

theorem junction_of_mem_formulas {junction : Junction}
    {conditions : List (Junction × Condition α)} (h : ∀ c ∈ conditions, c.1 = junction) :
    ∀ d ∈ formulas conditions, d.1 = junction := by
  induction conditions with
  | nil => simp [formulas]
  | cons c rest ih =>
    obtain ⟨junction', c⟩ := c
    obtain rfl : junction' = junction := h (junction', c) (by simp)
    intro d hd
    rw [formulas, List.mem_append] at hd
    rcases hd with hd | hd
    · cases hf : c.formula with
      | none => simp [hf] at hd
      | some f =>
        obtain rfl : d = (junction', f) := by simpa [hf] using hd
        rfl
    · exact ih (fun e he => h e (by simp [he])) d hd

/-- The first junction has no effect, and the others are AND already. -/
theorem fold_tied {conditions : List (Junction × Condition α)}
    (h : ∀ c ∈ conditions.tail, c.1 = .and) :
    Formula.fold (formulas (conditions.map fun c => (Junction.and, c.2))) =
      Formula.fold (formulas conditions) := by
  cases conditions with
  | nil => rfl
  | cons c rest =>
    have hrest : (formulas rest).map (fun d => (Junction.and, d.2)) = formulas rest := by
      refine (List.map_congr_left fun d hd => ?_).trans (List.map_id _)
      rw [← junction_of_mem_formulas h d hd]
      rfl
    rw [formulas_tied, formulas, List.map_append, hrest]
    cases c.2.formula <;> rfl

/-- Conditions that are tied with AND, or before which nothing is said, narrow what is said before
them. -/
theorem eval_append [Lattice T] [BoundedOrder T] (truth : Test α → T)
    {conditions added : List (Junction × Condition α)}
    (h : formulas conditions = [] ∨ ∀ d ∈ formulas added, d.1 = .and) :
    (Formula.fold (formulas (conditions ++ added))).map (Formula.eval truth) =
      ((Formula.fold (formulas conditions)).map (Formula.eval truth)).merge (· ⊓ ·)
        ((Formula.fold (formulas added)).map (Formula.eval truth)) := by
  rw [formulas_append, Formula.fold, Junction.fold_append]
  rcases h with hnil | hand
  · rw [hnil]
    exact (Option.merge_none_left).symm
  · have hand' : ∀ c ∈ (formulas added).map fun d => (d.1, d.2.eval truth), c.1 = .and := by
      intro c hc
      obtain ⟨d, hd, rfl⟩ := List.mem_map.1 hc
      exact hand d hd
    rw [Formula.eval_foldl_tie, Junction.foldl_and _ hand', ← Formula.eval_fold]
    rfl

/-- A list of conditions without text leaves what is written as it is. -/
theorem filter_phrases_eq_nil {conditions : List (Junction × Condition α)}
    (hw : EveryOf InWords conditions) (h : formulas conditions = []) :
    (phrases conditions).filter (fun c => !c.2.isEmpty) = [] := by
  have hall := phrases_say readBy_exact conditions hw
  rw [h] at hall
  exact List.forall₂_nil_right_iff.1 hall

end Condition

/-! ## Values of a predicate -/

theorem Joined.values_add (j : Option (Joined α)) (c : Junction × Phrase α) :
    ∃ j', Joined.add j c = some j' ∧
      j'.phrase.values = (j.elim [] fun j => j.phrase.values) ++ c.2.values := by
  obtain ⟨junction, next⟩ := c
  cases j with
  | none => exact ⟨_, rfl, rfl⟩
  | some j =>
    have hoperand : j.operand.values = j.phrase.values := by
      unfold operand
      split
      · exact Phrase.values_parens j.phrase
      · rfl
    cases junction with
    | and => exact ⟨_, rfl, by simp [Phrase.values_seq, hoperand]⟩
    | or => exact ⟨_, rfl, by simp [Phrase.values_seq]⟩

theorem Joined.values_foldl (cs : List (Junction × Phrase α)) (j : Option (Joined α)) :
    ((cs.foldl Joined.add j).elim [] fun j => j.phrase.values) =
      (j.elim [] fun j => j.phrase.values) ++ cs.flatMap fun c => c.2.values := by
  induction cs generalizing j with
  | nil => simp
  | cons c rest ih =>
    obtain ⟨j', hj', hvalues⟩ := Joined.values_add j c
    rw [List.foldl_cons, ih, hj', Option.elim_some, hvalues, List.flatMap_cons, List.append_assoc]

theorem Joined.values_phraseOf (cs : List (Junction × Phrase α)) :
    (Joined.phraseOf cs).values = cs.flatMap fun c => c.2.values := by
  have hfilter : (cs.filter fun c => !c.2.isEmpty).flatMap (fun c => c.2.values) =
      cs.flatMap fun c => c.2.values := by
    induction cs with
    | nil => rfl
    | cons c rest ih =>
      rw [List.flatMap_cons, ← ih, List.filter_cons]
      cases he : c.2.isEmpty with
      | true => simp [Phrase.values_of_isEmpty he]
      | false => simp
  have hfold := Joined.values_foldl (cs.filter fun c => !c.2.isEmpty) none
  rw [hfilter] at hfold
  unfold phraseOf
  split
  · rename_i h
    rw [h] at hfold
    exact hfold
  · rename_i h
    rw [h] at hfold
    exact hfold

theorem Condition.values_grouped (body : Phrase α) : (grouped body).values = body.values := by
  unfold grouped
  split
  · rfl
  · exact Phrase.values_parens body

/-! ## The merge of two predicates -/

namespace Predicate

/-- What the conditions of a predicate say. -/
def formula (p : Predicate α) : Option (Formula α) := Formula.fold (formulas p.conditions)

theorem values_phrase (p : Predicate α) : p.phrase.values = Condition.values p.conditions :=
  Joined.values_phraseOf _

theorem and_of_hasOr {p : Predicate α} (h : p.hasOr = false) :
    ∀ c ∈ p.conditions.tail, c.1 = .and := by
  intro c hc
  have hno : ¬ c.1 = .or := by
    have := List.any_eq_false.1 h c hc
    simpa using this
  cases hj : c.1 with
  | and => rfl
  | or => exact absurd hj hno

/-- The conditions of a merge: those of the first predicate, and further ones that bind what the
second one binds. They are tied with AND and say what it says, or nothing is said before them. -/
theorem conditions_merge {p other : Predicate α} (hp : EveryOf InWords p.conditions)
    (ho : EveryOf InWords other.conditions) :
    ∃ added, (p.merge other).conditions = p.conditions ++ added ∧ EveryOf InWords added ∧
      Condition.values added = Condition.values other.conditions ∧
      Formula.fold (formulas added) = other.formula ∧
      (formulas p.conditions = [] ∧ added = other.conditions ∨
        ∀ d ∈ formulas added, d.1 = .and) := by
  cases he : p.isEmpty with
  | true =>
    refine ⟨other.conditions, ?_, ho, rfl, rfl, .inl ⟨(isEmpty_iff hp).1 he, rfl⟩⟩
    simp [merge, he]
  | false =>
    cases hor : other.hasOr with
    | true =>
      refine ⟨[(.and, .group other.conditions)], ?_, ⟨ho, trivial⟩, ?_, ?_, .inr ?_⟩
      · simp [merge, he, hor]
      · rw [← values_phrase, ← Condition.values_grouped other.phrase]
        exact List.append_nil _
      · rw [formulas, formulas, List.append_nil, Condition.formula, formula]
        cases Formula.fold (formulas other.conditions) <;> rfl
      · exact Condition.junction_of_mem_formulas (by simp)
    | false =>
      refine ⟨other.conditions.map fun c => (.and, c.2), ?_, (everyOf_tied .and _).2 ho,
        Condition.values_tied .and _, Condition.fold_tied (and_of_hasOr hor), .inr ?_⟩
      · simp [merge, he, hor]
      · refine Condition.junction_of_mem_formulas fun c hc => ?_
        obtain ⟨d, -, rfl⟩ := List.mem_map.1 hc
        rfl

section

variable {p other : Predicate α} (hp : EveryOf InWords p.conditions)

include hp

/-- Merging into a predicate without text. -/
theorem phrase_merge_left (he : p.isEmpty = true) : (p.merge other).phrase = other.phrase := by
  have hadded : (p.merge other).conditions = p.conditions ++ other.conditions := by
    simp [merge, he]
  have hnil := Condition.filter_phrases_eq_nil hp ((isEmpty_iff hp).1 he)
  rw [phrase, phrase, hadded, Condition.phrases_append, Joined.phraseOf, Joined.phraseOf,
    List.filter_append, hnil, List.nil_append]

variable (ho : EveryOf InWords other.conditions)

include ho

theorem values_merge :
    (p.merge other).phrase.values = p.phrase.values ++ other.phrase.values := by
  obtain ⟨added, hadded, -, hvalues, -⟩ := conditions_merge hp ho
  rw [values_phrase, values_phrase, values_phrase, hadded, Condition.values_append, hvalues]

/-- Merging a predicate without text. -/
theorem phrase_merge_right (he : other.isEmpty = true) : (p.merge other).phrase = p.phrase := by
  obtain ⟨added, hadded, hw, -, hfold, -⟩ := conditions_merge hp ho
  have hformula : other.formula = none := (says_phrase ho).eq_none_iff.2 he
  rw [hformula] at hfold
  have hnil := Condition.filter_phrases_eq_nil hw ((Junction.fold_eq_none_iff _).1 hfold)
  rw [phrase, phrase, hadded, Condition.phrases_append, Joined.phraseOf, Joined.phraseOf,
    List.filter_append, hnil, List.append_nil]

/-- A merged predicate is true where both are. -/
theorem eval_merge [Lattice T] [BoundedOrder T] (truth : Test α → T) :
    (p.merge other).formula.map (Formula.eval truth) =
      (p.formula.map (Formula.eval truth)).merge (· ⊓ ·)
        (other.formula.map (Formula.eval truth)) := by
  obtain ⟨added, hadded, -, -, hfold, hcase⟩ := conditions_merge hp ho
  rw [formula, hadded, ← hfold]
  exact Condition.eval_append truth (hcase.imp And.left id)

end

theorem fault_merge (p other : Predicate α) :
    (p.merge other).fault = none ↔ p.fault = none ∧ other.fault = none := Option.or_eq_none_iff

end Predicate

/-! ## Several predicates -/

/-- The text of a phrase is read as this and as nothing else; not at all if nothing is said. -/
def Phrase.OnlyReads (p : Phrase α) (f : Option (Formula α)) : Prop :=
  ∀ g, p.ReadsAs g ↔ f = some g

/-- The merged phrase is the conjunction of the others. It binds their values in order, it is
written as one of them if the others have no text, and it is true where those with text all are,
whatever truths the tests have. -/
structure Phrase.Conjoins (phrases : List (Phrase α)) (merged : Phrase α) : Prop where
  values : merged.query.values = phrases.flatMap fun p => p.query.values
  neutral : ∀ before p after, phrases = before ++ p :: after →
    (∀ q ∈ before ++ after, q.query.sql = "") → merged.query = p.query
  reading : ∃ fs f, List.Forall₂ Phrase.OnlyReads phrases fs ∧ merged.OnlyReads f ∧
    ∀ (T : Type) [Lattice T] [BoundedOrder T] (truth : Test α → T),
      f.map (Formula.eval truth) =
        (fs.map (Option.map (Formula.eval truth))).foldl (Option.merge (· ⊓ ·)) none

namespace Predicate

theorem phrase_onlyReads {p : Predicate α} (hp : EveryOf InWords p.conditions) :
    p.phrase.OnlyReads p.formula := readsAs_iff hp

theorem isEmpty_of_sql {p : Predicate α} (h : p.phrase.query.sql = "") : p.isEmpty = true :=
  p.phrase.sql_eq_empty_iff.1 h

/-! A run of merges, of which each predicate is in the caller's words. -/

section

variable {p : Predicate α} (hp : EveryOf InWords p.conditions) {others : List (Predicate α)}
  (ho : ∀ q ∈ others, EveryOf InWords q.conditions)

include hp ho

theorem everyOf_foldl : EveryOf InWords (others.foldl merge p).conditions := by
  induction others generalizing p with
  | nil => exact hp
  | cons q rest ih =>
    obtain ⟨hq, hrest⟩ := List.forall_mem_cons.1 ho
    exact ih (everyOf_merge hp hq) hrest

theorem values_foldl : (others.foldl merge p).phrase.values =
    p.phrase.values ++ others.flatMap fun q => q.phrase.values := by
  induction others generalizing p with
  | nil => simp
  | cons q rest ih =>
    obtain ⟨hq, hrest⟩ := List.forall_mem_cons.1 ho
    rw [List.foldl_cons, ih (everyOf_merge hp hq) hrest, values_merge hp hq, List.flatMap_cons,
      List.append_assoc]

theorem eval_foldl [Lattice T] [BoundedOrder T] (truth : Test α → T) :
    (others.foldl merge p).formula.map (Formula.eval truth) =
      (others.map fun q => q.formula.map (Formula.eval truth)).foldl (Option.merge (· ⊓ ·))
        (p.formula.map (Formula.eval truth)) := by
  induction others generalizing p with
  | nil => rfl
  | cons q rest ih =>
    obtain ⟨hq, hrest⟩ := List.forall_mem_cons.1 ho
    rw [List.foldl_cons, ih (everyOf_merge hp hq) hrest, eval_merge hp hq, List.map_cons,
      List.foldl_cons]

/-- Merging predicates without text. -/
theorem phrase_foldl (he : ∀ q ∈ others, q.isEmpty = true) :
    (others.foldl merge p).phrase = p.phrase := by
  induction others generalizing p with
  | nil => rfl
  | cons q rest ih =>
    obtain ⟨hq, hrest⟩ := List.forall_mem_cons.1 ho
    obtain ⟨heq, herest⟩ := List.forall_mem_cons.1 he
    rw [List.foldl_cons, ih (everyOf_merge hp hq) hrest herest, phrase_merge_right hp hq heq]

end

/-- Predicates merged one after the other say all of what they say. -/
theorem conjoins_foldl {predicates : List (Predicate α)}
    (h : ∀ q ∈ predicates, EveryOf InWords q.conditions) :
    Phrase.Conjoins (predicates.map phrase) (predicates.foldl merge ∅).phrase := by
  have hempty : EveryOf InWords (∅ : Predicate α).conditions := trivial
  refine ⟨?_, ?_, predicates.map formula, _, ?_, phrase_onlyReads (everyOf_foldl hempty h), ?_⟩
  · simp only [Phrase.query_eq, List.flatMap_map]
    exact values_foldl hempty h
  · intro before x after hsplit hsilent
    obtain ⟨first, rest, rfl, rfl, hrest⟩ := List.map_eq_append_iff.1 hsplit
    obtain ⟨p, last, rfl, rfl, rfl⟩ := List.map_eq_cons_iff.1 hrest
    rw [← List.map_append, List.forall_mem_map] at hsilent
    have hfirst : ∀ q ∈ first, EveryOf InWords q.conditions := fun q hq => h q (by simp [hq])
    have hlast : ∀ q ∈ last, EveryOf InWords q.conditions := fun q hq => h q (by simp [hq])
    have hp : EveryOf InWords p.conditions := h p (by simp)
    have hbefore : (first.foldl merge ∅).isEmpty = true := by
      rw [isEmpty, phrase_foldl hempty hfirst fun q hq =>
        isEmpty_of_sql (hsilent q (by simp [hq]))]
      rfl
    have hw := everyOf_foldl hempty hfirst
    rw [List.foldl_append, List.foldl_cons, phrase_foldl (everyOf_merge hw hp) hlast fun q hq =>
      isEmpty_of_sql (hsilent q (by simp [hq])), phrase_merge_left hw hbefore]
  · rw [List.forall₂_map_left_iff, List.forall₂_map_right_iff, List.forall₂_same]
    exact fun q hq => phrase_onlyReads (h q hq)
  · intro T _ _ truth
    rw [List.map_map]
    exact eval_foldl hempty h truth

theorem fault_foldl (others : List (Predicate α)) (p : Predicate α) :
    (others.foldl merge p).fault = none ↔ p.fault = none ∧ ∀ q ∈ others, q.fault = none := by
  induction others generalizing p with
  | nil => simp
  | cons q rest ih => rw [List.foldl_cons, ih, fault_merge, List.forall_mem_cons, and_assoc]

/-- Predicates that compile are merged into one that compiles to their conjunction. -/
theorem compile_foldl {lists : List (List (Call α))} {phrases : List (Phrase α)}
    (h : List.Forall₂ (fun calls phrase => (ofCalls calls).compile = .ok phrase) lists phrases) :
    ∃ merged, ((lists.map ofCalls).foldl merge ∅).compile = .ok merged ∧
      Phrase.Conjoins phrases merged := by
  have hcompiled : phrases = (lists.map ofCalls).map phrase ∧
      ∀ q ∈ lists.map ofCalls, q.fault = none := by
    induction h with
    | nil => simp
    | cons hc _ ih =>
      obtain ⟨hfault, rfl⟩ := (compile_eq_ok_iff _ _).1 hc
      rw [List.map_cons, List.map_cons, List.forall_mem_cons, ← ih.1]
      exact ⟨rfl, hfault, ih.2⟩
  obtain ⟨hphrases, hfault⟩ := hcompiled
  have hwords : ∀ q ∈ lists.map ofCalls, EveryOf InWords q.conditions := by
    rw [List.forall_mem_map]
    exact fun calls _ => ofCalls_inWords calls
  refine ⟨_, (compile_eq_ok_iff _ _).2 ⟨(fault_foldl _ ∅).2 ⟨rfl, hfault⟩, rfl⟩, ?_⟩
  rw [hphrases]
  exact conjoins_foldl hwords

/-- A merge is the conjunction of two predicates, and the filters of a conflict clause are merged
into their conjunction. -/
theorem merge_conjoins {calls others : List (Call α)} {first second : Phrase α}
    (hp : (ofCalls calls).compile = .ok first) (hq : (ofCalls others).compile = .ok second)
    {filters : List (List (Call α))} {phrases : List (Phrase α)}
    (hf : List.Forall₂ (fun calls phrase => (ofCalls calls).compile = .ok phrase) filters phrases)
    (i : Insert α) (target : ConflictTarget) (action : ConflictAction α) :
    (∃ merged, ((ofCalls calls).merge (ofCalls others)).compile = .ok merged ∧
      Phrase.Conjoins [first, second] merged) ∧
    ∃ conflict merged, (i.apply (.conflict target filters action)).conflict = some conflict ∧
      conflict.filter.compile = .ok merged ∧ Phrase.Conjoins phrases merged := by
  refine ⟨compile_foldl (.cons hp (.cons hq .nil)), ?_⟩
  obtain ⟨merged, hmerged, hconjoins⟩ := compile_foldl hf
  exact ⟨_, merged, Insert.conflict_apply i target filters action, hmerged, hconjoins⟩

/-- Calls that leave an OR at the top of the text. -/
def eitherCalls : List (Call Nat) := [.equal .or (.text "a") 1, .equal .or (.text "b") 2]

theorem merge_eitherCalls :
    (∃ merged, ((ofCalls eitherCalls).merge (ofCalls eitherCalls)).compile = .ok merged ∧
      Phrase.Conjoins [(ofCalls eitherCalls).phrase, (ofCalls eitherCalls).phrase] merged) ∧
    ∃ conflict merged, ((Insert.ofTable "t").apply
        (.conflict (.columns ["a"]) [eitherCalls, []] .nothing)).conflict = some conflict ∧
      conflict.filter.compile = .ok merged ∧
      Phrase.Conjoins [(ofCalls eitherCalls).phrase, .empty] merged :=
  merge_conjoins rfl rfl (.cons rfl (.cons rfl .nil)) (Insert.ofTable "t") (.columns ["a"]) .nothing

example : ((ofCalls eitherCalls).merge (ofCalls eitherCalls)).phrase.query.sql =
    "(a = $1 OR b = $2) AND (a = $3 OR b = $4)" := by decide

end Predicate

end ParamSql
