import ParamSql.Proofs.Lexical.Clauses

/-!
# Names that a caller passes

The names that the calls on a predicate pass, and the predicates whose names are all among given
ones and in which nothing is in the caller's words.

Results:
* `Predicate.namedBy_apply`, `Predicate.namedBy_ofCalls`: a call keeps a predicate so if the names
  that it passes are among them.
* `Projection.parseAll_namedBy`, `RowLock.parseTables_passed`: lists of columns and tables.
-/

namespace ParamSql

variable {α : Type} {passed : Identifier → Prop}

namespace Predicate

namespace Call

mutual

/-- The call brings nothing in the caller's words. -/
def IsRawFree : Call α → Prop
  | .raw _ _ => False
  | .template _ _ => False
  | .group _ calls => AllRawFree calls
  | .merge calls => AllRawFree calls
  | _ => True

/-- None of the calls brings anything in the caller's words. -/
def AllRawFree : List (Call α) → Prop
  | [] => True
  | call :: calls => IsRawFree call ∧ AllRawFree calls

end

mutual

/-- The call passes this name. -/
def Passes (x : Identifier) : Call α → Prop
  | .equal _ column _ => column.resolve = .ok x
  | .equalAll columns => ∃ key ∈ columns.keys, Identifier.parse key = .ok x
  | .oneOf _ column _ => column.resolve = .ok x
  | .noneOf column _ => column.resolve = .ok x
  | .group _ calls => AnyPasses x calls
  | .merge calls => AnyPasses x calls
  | _ => False

/-- One of the calls passes this name. -/
def AnyPasses (x : Identifier) : List (Call α) → Prop
  | [] => False
  | call :: calls => Passes x call ∨ AnyPasses x calls

end

end Call

open Call (IsRawFree AllRawFree Passes AnyPasses Adds AddsAll)

theorem pairs_namedBy {columns : OrderedMap α} {pairs : List (Identifier × α)}
    (h : columns.entries.mapM pairOf = .ok pairs)
    (hn : ∀ x, (∃ key ∈ columns.keys, Identifier.parse key = .ok x) → passed x) :
    ∀ pair ∈ pairs, passed pair.1 := by
  intro pair hpair
  obtain ⟨entry, hentry, hread⟩ := (mem_of_mapM h).2 pair hpair
  exact hn pair.1 ⟨entry.1, List.mem_map_of_mem hentry, (pairOf_eq_ok_iff.1 hread).1⟩

mutual

/-- A call adds conditions on the names that it passes. -/
theorem adds_namedBy : ∀ call : Call α, call.IsRawFree → (∀ x, call.Passes x → passed x) →
    call.Adds (Condition.NamedBy passed)
  | .equal _ _ _, _, h => fun x hx => List.forall_mem_singleton.2 (h x hx)
  | .equalAll _, _, h => fun _ hpairs => pairs_namedBy hpairs h
  | .oneOf _ _ _, _, h => fun x hx => h x hx
  | .noneOf _ _, _, h => fun x hx => h x hx
  | .raw _ _, hr, _ => hr.elim
  | .template _ _, hr, _ => hr.elim
  | .all, _, _ => trivial
  | .group _ calls, hr, h => addsAll_namedBy calls hr h
  | .merge calls, hr, h => addsAll_namedBy calls hr h

theorem addsAll_namedBy : ∀ calls : List (Call α), AllRawFree calls →
    (∀ x, AnyPasses x calls → passed x) → AddsAll (Condition.NamedBy passed) calls
  | [], _, _ => trivial
  | call :: calls, hr, h =>
    ⟨adds_namedBy call hr.1 fun x hx => h x (.inl hx),
      addsAll_namedBy calls hr.2 fun x hx => h x (.inr hx)⟩

end

/-- The conditions of the predicate are on these names, and none is in the caller's words. -/
def NamedBy (passed : Identifier → Prop) (p : Predicate α) : Prop :=
  Condition.EveryOf (Condition.NamedBy passed) p.conditions

theorem namedBy_apply {p : Predicate α} (hp : p.NamedBy passed) {call : Call α}
    (hr : call.IsRawFree) (h : ∀ x, call.Passes x → passed x) : (p.apply call).NamedBy passed :=
  everyOf_apply call hp (adds_namedBy call hr h)

theorem namedBy_ofCalls {calls : List (Call α)} (hr : AllRawFree calls)
    (h : ∀ x, AnyPasses x calls → passed x) : (ofCalls calls).NamedBy passed :=
  everyOf_applyAll calls trivial (addsAll_namedBy calls hr h)

end Predicate

/-! ## Lists of columns and tables -/

/-- An entry of a column list that is given as text passes this name. -/
def EntryPasses (x : Identifier) (name : String) : Prop :=
  ∃ entry, Projection.parse name = .ok entry ∧ entry.name? = some x

theorem Projection.parseAll_namedBy {names : List String}
    (h : ∀ x, (∃ name ∈ names, EntryPasses x name) → passed x) :
    ∀ e ∈ (parseAll names).1, e.NamedBy passed := by
  induction names with
  | nil => simp [parseAll]
  | cons name rest ih =>
    rw [parseAll]
    split
    · rename_i entry hentry
      refine List.forall_mem_cons.2 ⟨fun x hx => h x ⟨name, by simp, entry, hentry, hx⟩, ?_⟩
      refine ih fun x hx => ?_
      obtain ⟨n, hn, hx⟩ := hx
      exact h x ⟨n, by simp [hn], hx⟩
    · simp

theorem RowLock.parseTables_passed {names : List String}
    (h : ∀ x, (∃ name ∈ names, Identifier.parse name = .ok x) → passed x) :
    ∀ x ∈ (parseTables names).1, passed x := by
  intro x hx
  obtain ⟨read, hread, hx⟩ := List.mem_filterMap.1 hx
  obtain ⟨name, hname, rfl⟩ := List.mem_map.1 hread
  refine h x ⟨name, hname, ?_⟩
  cases hp : Identifier.parse name with
  | error fault => simp [hp, Except.toOption] at hx
  | ok y =>
    obtain rfl : y = x := by simpa [hp, Except.toOption] using hx
    rfl

end ParamSql
