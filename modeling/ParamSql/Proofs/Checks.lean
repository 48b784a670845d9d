import Mathlib.Data.List.Forall2

/-!
# Checks in order

A computation that may be refused succeeds exactly if each of its steps does. With `Reports` it is
said of a computation which of several faults it is refused for: the first of them, and it succeeds
if there are none.

Results:
* `bind_eq_ok_iff`, `map_eq_ok_iff`, `mapError_eq_ok_iff`: one step after another.
* `bind_map`, `map_bind`: steps after and before a function of their result.
* `toOption_bind`, `toOption_map`, `toOption_mapM_congr`: results without regard to faults.
* `mapM_eq_ok_iff`, `exists_mapM_eq_ok_iff`, `forM_eq_ok_iff`, `mapM_hom`: the same step for every
  item of a list.
* `mem_of_mapM`, `map_of_mapM`: the results of a list and its items.
* `Reports.bind`, `Reports.mapM`: the faults of steps one after another.
-/

namespace ParamSql

variable {β γ ε ζ : Type}

theorem bind_eq_ok_iff {x : Except ε β} {f : β → Except ε γ} {c : γ} :
    x >>= f = .ok c ↔ ∃ b, x = .ok b ∧ f b = .ok c := by
  cases x <;> simp [bind, Except.bind]

theorem map_eq_ok_iff {x : Except ε β} {f : β → γ} {c : γ} :
    x.map f = .ok c ↔ ∃ b, x = .ok b ∧ f b = c := by
  cases x <;> simp [Except.map]

theorem map_eq_error_iff {x : Except ε β} {f : β → γ} {e : ε} :
    x.map f = .error e ↔ x = .error e := by
  cases x <;> simp [Except.map]

theorem exists_map_eq_ok_iff {x : Except ε β} {f : β → γ} :
    (∃ c, x.map f = .ok c) ↔ ∃ b, x = .ok b := by
  cases x <;> simp [Except.map]

theorem isOk_iff {x : Except ε β} : x.isOk = true ↔ ∃ b, x = .ok b := by
  cases x <;> simp [Except.isOk, Except.toBool]

theorem mapError_eq_ok_iff {x : Except ε β} {f : ε → ζ} {b : β} :
    x.mapError f = .ok b ↔ x = .ok b := by
  cases x <;> simp [Except.mapError]

theorem bind_map {δ : Type} (x : Except ε β) (f : β → γ) (next : γ → Except ε δ) :
    x.map f >>= next = x >>= fun b => next (f b) := by
  cases x <;> rfl

theorem map_bind {δ : Type} (x : Except ε β) (next : β → Except ε γ) (f : γ → δ) :
    (x >>= next).map f = x >>= fun b => (next b).map f := by
  cases x <;> rfl

theorem toOption_bind (x : Except ε β) (f : β → Except ε γ) :
    (x >>= f).toOption = x.toOption.bind fun b => (f b).toOption := by
  cases x <;> rfl

theorem toOption_map (x : Except ε β) (f : β → γ) : (x.map f).toOption = x.toOption.map f := by
  cases x <;> rfl

theorem map_pure (b : β) (f : β → γ) : (pure b : Except ε β).map f = pure (f b) := rfl

/-- Items are done one by one, and all of them are. -/
theorem mapM_eq_ok_iff {f : β → Except ε γ} {bs : List β} {cs : List γ} :
    bs.mapM f = .ok cs ↔ List.Forall₂ (fun b c => f b = .ok c) bs cs := by
  induction bs generalizing cs with
  | nil =>
    rw [List.mapM_nil, List.forall₂_nil_left_iff]
    simp [pure, Except.pure, eq_comm]
  | cons b bs ih =>
    rw [List.mapM_cons, bind_eq_ok_iff, List.forall₂_cons_left_iff]
    refine exists_congr fun c => ?_
    simp only [bind_eq_ok_iff, ih, pure, Except.pure, Except.ok.injEq]
    constructor
    · rintro ⟨hc, ds, hds, rfl⟩
      exact ⟨ds, hc, hds, rfl⟩
    · rintro ⟨ds, hc, hds, rfl⟩
      exact ⟨hc, ds, hds, rfl⟩

/-- A list has partners if each of its items has one. -/
theorem exists_forall₂_iff {R : β → γ → Prop} {bs : List β} :
    (∃ cs, List.Forall₂ R bs cs) ↔ ∀ b ∈ bs, ∃ c, R b c := by
  induction bs with
  | nil => simp
  | cons b bs ih =>
    rw [List.forall_mem_cons, ← ih]
    constructor
    · rintro ⟨cs, h⟩
      obtain ⟨c, ds, hc, hds, rfl⟩ := List.forall₂_cons_left_iff.1 h
      exact ⟨⟨c, hc⟩, ds, hds⟩
    · rintro ⟨⟨c, hc⟩, ds, hds⟩
      exact ⟨c :: ds, .cons hc hds⟩

theorem exists_mapM_eq_ok_iff {f : β → Except ε γ} {bs : List β} :
    (∃ cs, bs.mapM f = .ok cs) ↔ ∀ b ∈ bs, ∃ c, f b = .ok c := by
  simp only [mapM_eq_ok_iff, exists_forall₂_iff]

/-- Every item has a result, and every result is that of an item. -/
theorem mem_of_mapM {f : β → Except ε γ} {bs : List β} {cs : List γ} (h : bs.mapM f = .ok cs) :
    (∀ b ∈ bs, ∃ c ∈ cs, f b = .ok c) ∧ ∀ c ∈ cs, ∃ b ∈ bs, f b = .ok c := by
  have hall := mapM_eq_ok_iff.1 h
  clear h
  induction hall with
  | nil => simp
  | @cons b c bs cs hfirst _ ih =>
    obtain ⟨hitems, hresults⟩ := ih
    refine ⟨List.forall_mem_cons.2 ⟨⟨c, List.mem_cons_self, hfirst⟩, fun b' hb' => ?_⟩,
      List.forall_mem_cons.2 ⟨⟨b, List.mem_cons_self, hfirst⟩, fun c' hc' => ?_⟩⟩
    · obtain ⟨c', hc', hresult⟩ := hitems b' hb'
      exact ⟨c', List.mem_cons_of_mem c hc', hresult⟩
    · obtain ⟨b', hb', hresult⟩ := hresults c' hc'
      exact ⟨b', List.mem_cons_of_mem b hb', hresult⟩

/-- What every result has in common with its item, the results have in common with the items. -/
theorem map_of_mapM {δ : Type} {f : β → Except ε γ} {g : β → δ} {k : γ → δ} {bs : List β}
    {cs : List γ} (hstep : ∀ b c, f b = .ok c → k c = g b) (h : bs.mapM f = .ok cs) :
    cs.map k = bs.map g := by
  have hall := mapM_eq_ok_iff.1 h
  clear h
  induction hall with
  | nil => rfl
  | cons hfirst _ ih => rw [List.map_cons, List.map_cons, ih, hstep _ _ hfirst]

/-- Items that have the same results one by one have them together. -/
theorem toOption_mapM_congr {f : β → Except ε γ} {bs others : List β}
    (h : List.Forall₂ (fun b other => (f b).toOption = (f other).toOption) bs others) :
    (bs.mapM f).toOption = (others.mapM f).toOption := by
  induction h with
  | nil => rfl
  | cons hfirst _ ih => simp only [List.mapM_cons, toOption_bind, hfirst, ih]

/-- Two checks succeed one after the other exactly if both do. -/
theorem then_eq_ok_iff {x y : Except ε Unit} :
    (x >>= fun _ => y) = .ok () ↔ x = .ok () ∧ y = .ok () := by
  rw [bind_eq_ok_iff]
  exact ⟨fun ⟨(), h⟩ => h, fun h => ⟨(), h⟩⟩

/-- A check of every item of a list succeeds exactly if it succeeds for each. -/
theorem forM_eq_ok_iff {f : β → Except ε Unit} {bs : List β} :
    bs.forM f = .ok () ↔ ∀ b ∈ bs, f b = .ok () := by
  induction bs with
  | nil => simp [List.forM, pure, Except.pure]
  | cons b bs ih =>
    rw [List.forall_mem_cons, ← ih]
    exact then_eq_ok_iff

/-- A function of what a step gives is a function of what all steps give. -/
theorem mapM_hom {β' γ' : Type} {step : β → Except ε γ} {step' : β' → Except ε γ'} {f : β → β'}
    {g : γ → γ'} (h : ∀ b, step' (f b) = (step b).map g) (bs : List β) :
    (bs.map f).mapM step' = (bs.mapM step).map (List.map g) := by
  induction bs with
  | nil => rfl
  | cons b bs ih =>
    rw [List.map_cons, List.mapM_cons, List.mapM_cons, ih, h b]
    cases step b with
    | error e => rfl
    | ok c => cases bs.mapM step <;> rfl

/-! ## The first fault -/

/-- The fault for which a computation is refused, if it is. -/
def faultOf : Except ε β → List ε
  | .ok _ => []
  | .error e => [e]

/-- The computation is refused for the first of these faults, and succeeds if there are none. -/
def Reports (x : Except ε β) (faults : List ε) : Prop :=
  match faults.head? with
  | none => ∃ b, x = .ok b
  | some e => x = .error e

theorem reports_faultOf (x : Except ε β) : Reports x (faultOf x) := by
  cases x with
  | ok b => exact ⟨b, rfl⟩
  | error e => rfl

theorem faultOf_eq_nil_iff (x : Except ε β) : faultOf x = [] ↔ ∃ b, x = .ok b := by
  cases x <;> simp [faultOf]

theorem mem_faultOf_iff {x : Except ε β} {e : ε} : e ∈ faultOf x ↔ x = .error e := by
  cases x <;> simp [faultOf, eq_comm]

theorem reports_ok (b : β) : Reports (.ok b : Except ε β) [] := ⟨b, rfl⟩

theorem reports_error (e : ε) (faults : List ε) : Reports (.error e : Except ε β) (e :: faults) :=
  rfl

theorem Reports.ok_iff {x : Except ε β} {faults : List ε} (h : Reports x faults) :
    (∃ b, x = .ok b) ↔ faults = [] := by
  cases faults with
  | nil => exact iff_of_true h rfl
  | cons e faults =>
    obtain rfl : x = .error e := h
    simp

theorem Reports.error_iff {x : Except ε β} {faults : List ε} (h : Reports x faults) (e : ε) :
    x = .error e ↔ faults.head? = some e := by
  cases faults with
  | nil =>
    obtain ⟨b, rfl⟩ := h
    simp
  | cons e' faults =>
    obtain rfl : x = .error e' := h
    simp

/-- The faults of the first step stand before those of the second. -/
theorem Reports.bind {x : Except ε β} {faults : List ε} (hx : Reports x faults)
    {f : β → Except ε γ} {more : List ε} (hf : ∀ b, x = .ok b → Reports (f b) more) :
    Reports (x >>= f) (faults ++ more) := by
  cases faults with
  | nil =>
    obtain ⟨b, rfl⟩ := hx
    exact hf b rfl
  | cons e faults =>
    obtain rfl : x = .error e := hx
    rfl

/-- What is done with a result in the end can not be refused. -/
theorem Reports.bind_pure {x : Except ε β} {faults : List ε} (hx : Reports x faults) (f : β → γ) :
    Reports (x >>= fun b => pure (f b)) faults := by
  rw [← List.append_nil faults]
  exact hx.bind fun b _ => reports_ok (f b)

theorem Reports.map {x : Except ε β} {faults : List ε} (hx : Reports x faults) (f : β → γ) :
    Reports (x.map f) faults := by
  have := hx.bind_pure f
  cases x <;> exact this

theorem Reports.mapError {x : Except ε β} {faults : List ε} (hx : Reports x faults) (f : ε → ζ) :
    Reports (x.mapError f) (faults.map f) := by
  cases faults with
  | nil =>
    obtain ⟨b, rfl⟩ := hx
    exact reports_ok b
  | cons e faults =>
    obtain rfl : x = .error e := hx
    rfl

/-- With further faults, a computation is refused as it is without them, or else for the first of
these. -/
theorem Reports.error_append_iff {x : Except ε β} {y : Except ε γ} {faults more : List ε}
    (hx : Reports x faults) (hy : Reports y (faults ++ more)) (e : ε) :
    y = .error e ↔ x = .error e ∨ (∃ b, x = .ok b) ∧ more.head? = some e := by
  rw [hx.ok_iff, hx.error_iff, hy.error_iff]
  cases faults with
  | nil => simp
  | cons first rest => simp

/-- A choice is refused for the faults of the branch that is taken. -/
theorem Reports.ite {p q : Prop} [Decidable p] [Decidable q] (h : p ↔ q) {x y : Except ε β}
    {faults others : List ε} (hx : q → Reports x faults) (hy : ¬ q → Reports y others) :
    Reports (if p then x else y) (if q then faults else others) := by
  by_cases hq : q
  · rw [if_pos (h.2 hq), if_pos hq]
    exact hx hq
  · rw [if_neg (mt h.1 hq), if_neg hq]
    exact hy hq

/-- A refusal under a condition, before anything else. -/
theorem Reports.throwIf {p q : Prop} [Decidable p] [Decidable q] (h : p ↔ q) (e : ε)
    {x : Except ε β} {faults : List ε} (hx : Reports x faults) :
    Reports (do
      if p then throw e
      x) (if q then [e] else faults) :=
  .ite h (fun _ => reports_error e []) fun _ => hx

/-- The faults of a list are those of its items, one after the other. -/
theorem Reports.mapM {f : β → Except ε γ} {faults : β → List ε} {bs : List β}
    (h : ∀ b ∈ bs, Reports (f b) (faults b)) : Reports (bs.mapM f) (bs.flatMap faults) := by
  induction bs with
  | nil => exact reports_ok []
  | cons b bs ih =>
    obtain ⟨hb, hbs⟩ := List.forall_mem_cons.1 h
    rw [List.mapM_cons, List.flatMap_cons]
    exact hb.bind fun c _ => (ih hbs).bind_pure fun cs => c :: cs

end ParamSql
