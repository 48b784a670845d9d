import ParamSql.Proofs.Lexical.Names
import ParamSql.Proofs.Statement.Calls
import ParamSql.Proofs.Statement.Rows

/-!
# INSERT in good order

An INSERT whose calls bring nothing in the caller's words is in good order, with any names for its
table, columns and constraints.

Results:
* `Insert.namedBy_apply`, `Insert.namedBy_ofCalls`: one call, and any calls.
* `Insert.targetColumns_last`: columns are written without their qualifiers.
* `Insert.phrase_tidy`: what is compiled.
-/

namespace ParamSql

variable {α : Type} {passed : Identifier → Prop}

/-- The names of a conflict clause are among these, and nothing is in the caller's words. -/
structure Conflict.NamedBy (passed : Identifier → Prop) (c : Conflict α) : Prop where
  target : ∀ name ∈ c.target.names, ReadsTo passed name
  action : ∀ name ∈ c.action.names, ReadsTo passed name
  filter : c.filter.NamedBy passed

namespace Insert

/-- The call brings nothing in the caller's words. -/
def Call.IsRawFree : Call α → Prop
  | .conflict _ filters _ => ∀ calls ∈ filters, Predicate.Call.AllRawFree calls
  | _ => True

/-- The call passes this name. -/
def Call.Passes (x : Identifier) : Call α → Prop
  | .rows added => ∃ row ∈ added, ∃ key ∈ row.keys, Identifier.parse key = .ok x
  | .returning names => ∃ name ∈ names, EntryPasses x name
  | .conflict target filters action =>
    (∃ name ∈ target.names ++ action.names, Identifier.parse name = .ok x) ∨
      ∃ calls ∈ filters, Predicate.Call.AnyPasses x calls

/-- The names of the statement are among these, and nothing is in the caller's words. -/
structure NamedBy (passed : Identifier → Prop) (i : Insert α) : Prop where
  table : ReadsTo passed i.table
  rows : ∀ row ∈ i.rows, ∀ key ∈ row.keys, ReadsTo passed key
  conflict : ∀ c, i.conflict = some c → c.NamedBy passed
  returning : ∀ e ∈ i.returning, e.NamedBy passed

theorem namedBy_ofTable {table : String} (h : ReadsTo passed table) :
    (ofTable table : Insert α).NamedBy passed :=
  ⟨h, by simp [ofTable], by simp [ofTable], by simp [ofTable]⟩

theorem filters_namedBy {filters : List (List (Predicate.Call α))}
    (hr : ∀ calls ∈ filters, Predicate.Call.AllRawFree calls)
    (h : ∀ x, (∃ calls ∈ filters, Predicate.Call.AnyPasses x calls) → passed x) :
    ((filters.map Predicate.ofCalls).foldl Predicate.merge ∅).NamedBy passed := by
  refine List.foldlRecOn (motive := Predicate.NamedBy passed) _ _ (b := ∅) trivial
    fun p hp q hq => ?_
  obtain ⟨calls, hcalls, rfl⟩ := List.mem_map.1 hq
  exact Predicate.everyOf_merge hp
    (Predicate.namedBy_ofCalls (hr calls hcalls) fun x hx => h x ⟨calls, hcalls, hx⟩)

/-- A call keeps the names of a statement among these if those that it passes are. -/
theorem namedBy_apply {i : Insert α} (hi : i.NamedBy passed) {call : Call α}
    (hr : call.IsRawFree) (h : ∀ x, call.Passes x → passed x) : (i.apply call).NamedBy passed := by
  cases call with
  | rows rows =>
    exact { hi with
      rows := List.forall_mem_append.2
        ⟨hi.rows, fun row hrow key hkey x hx => h x ⟨row, hrow, key, hkey, hx⟩⟩ }
  | returning names =>
    exact { hi with
      returning := List.forall_mem_append.2 ⟨hi.returning, Projection.parseAll_namedBy h⟩ }
  | conflict target filters action =>
    have hconflict : Conflict.NamedBy passed
        ⟨target, action, (filters.map Predicate.ofCalls).foldl Predicate.merge ∅⟩ :=
      ⟨fun name hname x hx => h x (.inl ⟨name, by simp [hname], hx⟩),
        fun name hname x hx => h x (.inl ⟨name, by simp [hname], hx⟩),
        filters_namedBy hr fun x hx => h x (.inr hx)⟩
    refine { hi with conflict := fun c hc => ?_ }
    obtain rfl := Option.some.inj hc
    exact hconflict

theorem namedBy_ofCalls {table : String} (ht : ReadsTo passed table) {calls : List (Call α)}
    (hr : ∀ call ∈ calls, call.IsRawFree)
    (h : ∀ x, (∃ call ∈ calls, call.Passes x) → passed x) :
    (ofCalls table calls).NamedBy passed :=
  List.foldlRecOn (motive := NamedBy passed) calls apply (namedBy_ofTable ht)
    fun _ hi call hcall => namedBy_apply hi (hr call hcall) fun x hx => h x ⟨call, hcall, hx⟩

/-- The columns of a row are the last segments of the names that are given for them. -/
theorem targetColumns_last {keys : List String} (h : ∀ key ∈ keys, ReadsTo passed key)
    {columns result : List Identifier} (hc : ∀ c ∈ columns, ∃ x, passed x ∧ c = x.last)
    (hf : keys.foldlM addColumn columns = .ok result) :
    ∀ c ∈ result, ∃ x, passed x ∧ c = x.last := by
  induction keys generalizing columns with
  | nil =>
    cases hf
    exact hc
  | cons key rest ih =>
    obtain ⟨hkey, hrest⟩ := List.forall_mem_cons.1 h
    rw [List.foldlM_cons] at hf
    obtain ⟨next, hnext, hf⟩ := bind_eq_ok_iff.1 hf
    obtain ⟨x, hx, -, rfl⟩ := (addColumn_eq_ok_iff columns key next).1 hnext
    refine ih hrest (List.forall_mem_append.2 ⟨hc, List.forall_mem_singleton.2 ?_⟩) hf
    exact ⟨x, hkey x hx, rfl⟩

theorem tuple_tidy (first row : OrderedMap α) : (tuple first row).IsTidy passed := by
  refine Phrase.isTidy_parens (Phrase.isTidy_listed ?_)
  rw [List.forall_mem_map]
  exact fun v _ => Phrase.isTidy_value v

theorem valuesClause_tidy {i : Insert α} {columns : List Identifier}
    (hcolumns : i.targetColumns = .ok columns) (hc : ∀ c ∈ columns, ∃ x, passed x ∧ c = x.last)
    {p : Phrase α} (hp : i.valuesClause columns = .ok p) : p.IsTidy passed := by
  obtain ⟨first, more, -, -, ⟨-, -, -, rfl⟩ | ⟨-, rfl⟩⟩ := valuesClause_cases hcolumns hp
  · exact Phrase.isTidy_keyword fun _ => ⟨rfl, rfl⟩
  · have hnames : (Phrase.parens (.listed (columns.map .name)) : Phrase α).IsTidy passed := by
      refine Phrase.isTidy_parens (Phrase.isTidy_listed ?_)
      rw [List.forall_mem_map]
      intro c hcolumn
      obtain ⟨x, hx, rfl⟩ := hc c hcolumn
      exact Phrase.isTidy_last hx
    have hvalues : (Phrase.keyword "VALUES" : Phrase α).IsTidy passed :=
      Phrase.isTidy_keyword fun _ => ⟨rfl, rfl⟩
    have hrows : (Phrase.listed ((first :: more).map (tuple first))).IsTidy passed := by
      refine Phrase.isTidy_listed ?_
      rw [List.forall_mem_map]
      exact fun row _ => tuple_tidy first row
    exact Phrase.isTidy_spaced (List.forall_mem_cons.2 ⟨hnames,
      List.forall_mem_cons.2 ⟨hvalues, List.forall_mem_singleton.2 hrows⟩⟩)

theorem phrase_tidy {i : Insert α} (h : i.NamedBy passed) {p : Phrase α}
    (hp : i.phrase = .ok p) : p.IsTidy passed := by
  obtain ⟨-, -, hp⟩ := bind_eq_ok_iff.1 hp
  obtain ⟨table, htable, hp⟩ := bind_eq_ok_iff.1 hp
  obtain ⟨columns, hcolumns, hp⟩ := bind_eq_ok_iff.1 hp
  obtain ⟨values, hvalues, hp⟩ := bind_eq_ok_iff.1 hp
  obtain ⟨conflict, hconflict, hp⟩ := bind_eq_ok_iff.1 hp
  cases hp
  have hlast : ∀ c ∈ columns, ∃ x, passed x ∧ c = x.last := by
    have hfold := hcolumns
    unfold targetColumns at hfold
    split at hfold
    · cases hfold
      simp
    · rename_i row more hrows
      exact targetColumns_last (h.rows row (by simp [hrows])) (by simp) hfold
  have hinsert : (Phrase.keyword "INSERT INTO" : Phrase α).IsTidy passed :=
    Phrase.isTidy_keyword fun _ => ⟨rfl, rfl⟩
  have hname : (Phrase.name table : Phrase α).IsTidy passed :=
    Phrase.isTidy_name (h.table.expect htable)
  have hbody := valuesClause_tidy hcolumns hlast hvalues
  have hclause : conflict.IsTidy passed := by
    unfold conflictClause at hconflict
    split at hconflict
    · rename_i c hc
      have hn := h.conflict c hc
      refine Conflict.phrase_tidy hn.target hn.action hn.filter (fun column hcolumn => ?_) hconflict
      obtain ⟨x, hx, rfl⟩ := hlast column hcolumn
      exact ⟨x, hx, rfl⟩
    · cases hconflict
      exact Phrase.isTidy_empty
  have hreturning : (Projection.returning i.returning : Phrase α).IsTidy passed :=
    Projection.returning_tidy h.returning
  exact Phrase.isTidy_spaced (by simp [hinsert, hname, hbody, hclause, hreturning])

end Insert

end ParamSql
