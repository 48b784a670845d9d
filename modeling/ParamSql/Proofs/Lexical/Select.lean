import ParamSql.Proofs.Lexical.Names
import ParamSql.Proofs.Statement.Calls

/-!
# SELECT in good order

A SELECT whose calls bring nothing in the caller's words is in good order, with any names. The names
in it are among those that its calls pass; every call keeps it so.

Results:
* `Select.namedBy_apply`, `Select.namedBy_ofCalls`: one call, and any calls.
* `Select.phrase_tidy`, `Count.phrase_tidy`: what is compiled.
-/

namespace ParamSql

variable {α : Type} {passed : Identifier → Prop}

namespace Select

/-- The call brings nothing in the caller's words. -/
def Call.IsRawFree : Call α → Prop
  | .join _ _ (.raw _) => False
  | .filter call => call.IsRawFree
  | _ => True

/-- The call passes this name. -/
def Call.Passes (x : Identifier) : Call α → Prop
  | .columns names => ∃ name ∈ names, EntryPasses x name
  | .projections entries => ∃ e ∈ entries, e.name? = some x
  | .join _ table (.columns a b) => ∃ name ∈ [table, a, b], Identifier.parse name = .ok x
  | .order keys => ∃ k ∈ keys, Identifier.parse k.column = .ok x
  | .lock _ tables _ => ∃ name ∈ tables, Identifier.parse name = .ok x
  | .filter call => call.Passes x
  | _ => False

/-- The names of the statement are among these, and nothing is in the caller's words. -/
structure NamedBy (passed : Identifier → Prop) (s : Select α) : Prop where
  table : ReadsTo passed s.table
  columns : ∀ e ∈ s.columns, e.NamedBy passed
  joins : ∀ j ∈ s.joins, j.NamedBy passed
  predicate : s.predicate.NamedBy passed
  order : ∀ k ∈ s.order, ReadsTo passed k.column
  locks : ∀ l ∈ s.locks, ∀ x ∈ l.tables, passed x

theorem namedBy_ofTable {table : String} (h : ReadsTo passed table) :
    (ofTable table : Select α).NamedBy passed :=
  ⟨h, by simp [ofTable], by simp [ofTable], trivial, by simp [ofTable], by simp [ofTable]⟩

theorem namedBy_addJoin {s : Select α} (hs : s.NamedBy passed) {kind : JoinKind}
    {table a b : String}
    (h : ∀ x, (∃ name ∈ [table, a, b], Identifier.parse name = .ok x) → passed x) :
    (s.addJoin kind table (.columns a b)).NamedBy passed := by
  unfold addJoin
  split
  · rename_i join hjoin
    obtain ⟨x, hx, hjoin⟩ := bind_eq_ok_iff.1 hjoin
    obtain ⟨y, hy, hjoin⟩ := bind_eq_ok_iff.1 hjoin
    obtain ⟨condition, hcondition, hjoin⟩ := bind_eq_ok_iff.1 hjoin
    obtain ⟨t, ht, hjoin⟩ := bind_eq_ok_iff.1 hjoin
    cases hcondition
    cases hjoin
    have hnew : (⟨kind, t, .columns x y⟩ : Join).NamedBy passed :=
      ⟨h t ⟨table, by simp, ht⟩, x, y, rfl, h x ⟨a, by simp, hx⟩, h y ⟨b, by simp, hy⟩⟩
    exact { hs with
      joins := List.forall_mem_append.2 ⟨hs.joins, List.forall_mem_singleton.2 hnew⟩ }
  · exact { hs with }

/-- A call keeps the names of a statement among these if those that it passes are. -/
theorem namedBy_apply {s : Select α} (hs : s.NamedBy passed) {call : Call α}
    (hr : call.IsRawFree) (h : ∀ x, call.Passes x → passed x) : (s.apply call).NamedBy passed := by
  cases call with
  | columns names =>
    exact { hs with
      columns := List.forall_mem_append.2 ⟨hs.columns, Projection.parseAll_namedBy h⟩ }
  | projections entries =>
    exact { hs with
      columns := List.forall_mem_append.2 ⟨hs.columns, fun e he x hx => h x ⟨e, he, hx⟩⟩ }
  | join kind table on =>
    cases on with
    | raw sql => exact hr.elim
    | columns a b => exact namedBy_addJoin hs h
  | order keys =>
    exact { hs with
      order := List.forall_mem_append.2 ⟨hs.order, fun k hk x hx => h x ⟨k, hk, hx⟩⟩ }
  | limit n => exact { hs with }
  | offset n => exact { hs with }
  | lock mode tables policy =>
    rw [apply, addLock_eq]
    exact { hs with
      locks := List.forall_mem_append.2
        ⟨hs.locks, List.forall_mem_singleton.2 (RowLock.parseTables_passed h)⟩ }
  | filter call => exact { hs with predicate := Predicate.namedBy_apply hs.predicate hr h }

theorem namedBy_ofCalls {table : String} (ht : ReadsTo passed table) {calls : List (Call α)}
    (hr : ∀ call ∈ calls, call.IsRawFree)
    (h : ∀ x, (∃ call ∈ calls, call.Passes x) → passed x) :
    (ofCalls table calls).NamedBy passed :=
  List.foldlRecOn (motive := NamedBy passed) calls apply (namedBy_ofTable ht)
    fun _ hs call hcall => namedBy_apply hs (hr call hcall) fun x hx => h x ⟨call, hcall, hx⟩

theorem source_tidy {s : Select α} (h : s.NamedBy passed) {p : Phrase α}
    (hp : s.source = .ok p) : p.IsTidy passed := by
  obtain ⟨table, htable, hp⟩ := bind_eq_ok_iff.1 hp
  obtain ⟨condition, hcondition, hp⟩ := bind_eq_ok_iff.1 hp
  cases hp
  have hfrom : (Phrase.keyword "FROM" : Phrase α).IsTidy passed :=
    Phrase.isTidy_keyword fun _ => ⟨rfl, rfl⟩
  have hname : (Phrase.name table : Phrase α).IsTidy passed :=
    Phrase.isTidy_name (h.table.expect htable)
  have hjoins : (Join.clause s.joins : Phrase α).IsTidy passed := Join.clause_tidy h.joins
  have hwhere := Predicate.whereClause_tidy h.predicate hcondition
  exact Phrase.isTidy_spaced (by simp [hfrom, hname, hjoins, hwhere])

theorem bound_tidy {text : String} (hk : ∀ a, Piece.IsKeyword a a text)
    (he : Piece.endsApart text = true) (v : Option α) : (bound text v).IsTidy passed := by
  cases v with
  | none => exact Phrase.isTidy_empty
  | some v => exact Phrase.isTidy_led hk he (Phrase.isTidy_value v)

theorem phrase_tidy {s : Select α} (h : s.NamedBy passed) {p : Phrase α}
    (hp : s.phrase = .ok p) : p.IsTidy passed := by
  obtain ⟨-, -, hp⟩ := bind_eq_ok_iff.1 hp
  obtain ⟨source, hsource, hp⟩ := bind_eq_ok_iff.1 hp
  obtain ⟨order, horder, hp⟩ := bind_eq_ok_iff.1 hp
  cases hp
  have hselect : (Phrase.keyword "SELECT" : Phrase α).IsTidy passed :=
    Phrase.isTidy_keyword fun _ => ⟨rfl, rfl⟩
  have hcolumns : (Projection.selection s.columns : Phrase α).IsTidy passed :=
    Projection.selection_tidy h.columns
  have hfrom := source_tidy h hsource
  have hkeys := SortKey.clause_tidy h.order horder
  have hlimit : (bound "LIMIT " s.limit).IsTidy passed :=
    bound_tidy (fun _ => ⟨rfl, rfl⟩) rfl s.limit
  have hoffset : (bound "OFFSET " s.offset).IsTidy passed :=
    bound_tidy (fun _ => ⟨rfl, rfl⟩) rfl s.offset
  have hlocks : (RowLock.clause s.locks : Phrase α).IsTidy passed := RowLock.clause_tidy h.locks
  exact Phrase.isTidy_spaced
    (by simp [hselect, hcolumns, hfrom, hkeys, hlimit, hoffset, hlocks])

end Select

namespace Count

theorem namedBy_foldl {c : Count α} (hc : c.select.NamedBy passed)
    {filters : List (Predicate.Call α)} (hr : Predicate.Call.AllRawFree filters)
    (h : ∀ x, Predicate.Call.AnyPasses x filters → passed x) :
    (filters.foldl addFilter c).select.NamedBy passed := by
  induction filters generalizing c with
  | nil => exact hc
  | cons call rest ih =>
    have hnext : (c.addFilter call).select.NamedBy passed :=
      { hc with predicate := Predicate.namedBy_apply hc.predicate hr.1 fun x hx => h x (.inl hx) }
    exact ih hnext hr.2 fun x hx => h x (.inr hx)

theorem namedBy_ofCalls {table : String} {calls : List (Select.Call α)}
    (hs : (Select.ofCalls table calls).NamedBy passed) {filters : List (Predicate.Call α)}
    (hr : Predicate.Call.AllRawFree filters)
    (h : ∀ x, Predicate.Call.AnyPasses x filters → passed x) :
    (ofCalls table calls filters).select.NamedBy passed := namedBy_foldl hs hr h

theorem phrase_tidy {c : Count α} (h : c.select.NamedBy passed) {p : Phrase α}
    (hp : c.phrase = .ok p) : p.IsTidy passed := by
  obtain ⟨-, -, hp⟩ := bind_eq_ok_iff.1 hp
  obtain ⟨source, hsource, hp⟩ := bind_eq_ok_iff.1 hp
  cases hp
  have hcount : (Phrase.keyword "SELECT COUNT(*)" : Phrase α).IsTidy passed :=
    Phrase.isTidy_keyword fun _ => ⟨rfl, rfl⟩
  exact Phrase.isTidy_spaced (by simp [hcount, Select.source_tidy h hsource])

end Count

end ParamSql
