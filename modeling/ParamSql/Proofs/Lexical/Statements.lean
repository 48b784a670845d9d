import ParamSql.Proofs.Lexical.Insert
import ParamSql.Proofs.Lexical.Select

/-!
# Statements in good order

What a statement of any kind compiles to when none of its calls brings anything in the caller's
words: whatever texts are passed as names and words of order, no quote stays open, nothing is quoted
but segments of names, nothing else stands outside of quotes than may, the parentheses balance, and
the placeholders are those of the values, one after the other.

Results:
* `Update.namedBy_apply`, `Delete.namedBy_apply`: one call on an UPDATE or DELETE.
* `Recipe.phrase_tidy`: a statement of any kind.
* `Recipe.compile_wellFormed`: what its text looks like to a scanner.
-/

namespace ParamSql

variable {α : Type} {passed : Identifier → Prop}

/-! ## UPDATE -/

namespace Update

/-- The call brings nothing in the caller's words. -/
def Call.IsRawFree : Call α → Prop
  | .set _ (.raw _) => False
  | .filter call => call.IsRawFree
  | _ => True

/-- The call passes this name. -/
def Call.Passes (x : Identifier) : Call α → Prop
  | .set column _ => Identifier.parse column = .ok x
  | .setAll columns => ∃ key ∈ columns.keys, Identifier.parse key = .ok x
  | .filter call => call.Passes x
  | .returning names => ∃ name ∈ names, EntryPasses x name

/-- The column that is set is among these, and it is set to a bound value. -/
def AssignedBy (passed : Identifier → Prop) (entry : String × Assigned α) : Prop :=
  ReadsTo passed entry.1 ∧ ∃ v, entry.2 = .value v

/-- The names of the statement are among these, and nothing is in the caller's words. -/
structure NamedBy (passed : Identifier → Prop) (u : Update α) : Prop where
  table : ReadsTo passed u.table
  assignments : ∀ entry ∈ u.assignments.entries, AssignedBy passed entry
  predicate : u.predicate.NamedBy passed
  returning : ∀ e ∈ u.returning, e.NamedBy passed

theorem namedBy_ofTable {table : String} (h : ReadsTo passed table) :
    (ofTable table : Update α).NamedBy passed := by
  refine ⟨h, fun entry hentry => ?_, trivial, by simp [ofTable]⟩
  cases hentry

/-- A call keeps the names of a statement among these if those that it passes are. -/
theorem namedBy_apply {u : Update α} (hu : u.NamedBy passed) {call : Call α}
    (hr : call.IsRawFree) (h : ∀ x, call.Passes x → passed x) : (u.apply call).NamedBy passed := by
  cases call with
  | set column assigned =>
    cases assigned with
    | raw sql => exact hr.elim
    | value v =>
      exact { hu with
        assignments := OrderedMap.forall_entries_set hu.assignments ⟨h, v, rfl⟩ }
  | setAll columns =>
    have hall : ∀ entry ∈ (columns.map Assigned.value).entries, AssignedBy passed entry := by
      intro entry hentry
      obtain ⟨pair, hpair, rfl⟩ := List.mem_map.1 hentry
      exact ⟨fun x hx => h x ⟨pair.1, List.mem_map_of_mem hpair, hx⟩, pair.2, rfl⟩
    exact { hu with assignments := OrderedMap.forall_entries_setAll hall hu.assignments }
  | filter call => exact { hu with predicate := Predicate.namedBy_apply hu.predicate hr h }
  | returning names =>
    exact { hu with
      returning := List.forall_mem_append.2 ⟨hu.returning, Projection.parseAll_namedBy h⟩ }

theorem namedBy_ofCalls {table : String} (ht : ReadsTo passed table) {calls : List (Call α)}
    (hr : ∀ call ∈ calls, call.IsRawFree)
    (h : ∀ x, (∃ call ∈ calls, call.Passes x) → passed x) :
    (ofCalls table calls).NamedBy passed :=
  List.foldlRecOn (motive := NamedBy passed) calls apply (namedBy_ofTable ht)
    fun _ hu call hcall => namedBy_apply hu (hr call hcall) fun x hx => h x ⟨call, hcall, hx⟩

theorem assignment_tidy {entry : String × Assigned α} (h : AssignedBy passed entry)
    {p : Phrase α} (hp : assignment entry = .ok p) : p.IsTidy passed := by
  obtain ⟨column, hcolumn, rfl⟩ := map_eq_ok_iff.1 hp
  obtain ⟨v, hv⟩ := h.2
  rw [hv]
  exact Phrase.isTidy_around (Phrase.isTidy_last (h.1.expect hcolumn)) (fun _ => ⟨rfl, rfl⟩) rfl rfl
    (Phrase.isTidy_value v)

theorem setClause_tidy {u : Update α} (h : ∀ entry ∈ u.assignments.entries, AssignedBy passed entry)
    {p : Phrase α} (hp : u.setClause = .ok p) : p.IsTidy passed := by
  unfold setClause at hp
  split at hp
  · cases hp
  · obtain ⟨assignments, hassignments, rfl⟩ := map_eq_ok_iff.1 hp
    refine Phrase.isTidy_led (fun _ => ⟨rfl, rfl⟩) rfl (Phrase.isTidy_listed ?_)
    exact forall_of_mapM hassignments fun entry hentry _ => assignment_tidy (h entry hentry)

theorem phrase_tidy {u : Update α} (h : u.NamedBy passed) {p : Phrase α}
    (hp : u.phrase = .ok p) : p.IsTidy passed := by
  obtain ⟨-, -, hp⟩ := bind_eq_ok_iff.1 hp
  obtain ⟨table, htable, hp⟩ := bind_eq_ok_iff.1 hp
  obtain ⟨assignments, hassignments, hp⟩ := bind_eq_ok_iff.1 hp
  obtain ⟨condition, hcondition, hp⟩ := bind_eq_ok_iff.1 hp
  obtain ⟨-, -, hp⟩ := bind_eq_ok_iff.1 hp
  cases hp
  have hupdate : (Phrase.keyword "UPDATE" : Phrase α).IsTidy passed :=
    Phrase.isTidy_keyword fun _ => ⟨rfl, rfl⟩
  have hname : (Phrase.name table : Phrase α).IsTidy passed :=
    Phrase.isTidy_name (h.table.expect htable)
  have hset := setClause_tidy h.assignments hassignments
  have hwhere := Predicate.whereClause_tidy h.predicate hcondition
  have hreturning : (Projection.returning u.returning : Phrase α).IsTidy passed :=
    Projection.returning_tidy h.returning
  exact Phrase.isTidy_spaced (by simp [hupdate, hname, hset, hwhere, hreturning])

end Update

/-! ## DELETE -/

namespace Delete

/-- The call brings nothing in the caller's words. -/
def Call.IsRawFree : Call α → Prop
  | .filter call => call.IsRawFree
  | .returning _ => True

/-- The call passes this name. -/
def Call.Passes (x : Identifier) : Call α → Prop
  | .filter call => call.Passes x
  | .returning names => ∃ name ∈ names, EntryPasses x name

/-- The names of the statement are among these, and nothing is in the caller's words. -/
structure NamedBy (passed : Identifier → Prop) (d : Delete α) : Prop where
  table : ReadsTo passed d.table
  predicate : d.predicate.NamedBy passed
  returning : ∀ e ∈ d.returning, e.NamedBy passed

/-- A call keeps the names of a statement among these if those that it passes are. -/
theorem namedBy_apply {d : Delete α} (hd : d.NamedBy passed) {call : Call α}
    (hr : call.IsRawFree) (h : ∀ x, call.Passes x → passed x) : (d.apply call).NamedBy passed := by
  cases call with
  | filter call => exact { hd with predicate := Predicate.namedBy_apply hd.predicate hr h }
  | returning names =>
    exact { hd with
      returning := List.forall_mem_append.2 ⟨hd.returning, Projection.parseAll_namedBy h⟩ }

theorem namedBy_ofCalls {table : String} (ht : ReadsTo passed table) {calls : List (Call α)}
    (hr : ∀ call ∈ calls, call.IsRawFree)
    (h : ∀ x, (∃ call ∈ calls, call.Passes x) → passed x) :
    (ofCalls table calls).NamedBy passed :=
  List.foldlRecOn (motive := NamedBy passed) calls apply (b := ofTable table)
    ⟨ht, trivial, by simp [ofTable]⟩
    fun _ hd call hcall => namedBy_apply hd (hr call hcall) fun x hx => h x ⟨call, hcall, hx⟩

theorem phrase_tidy {d : Delete α} (h : d.NamedBy passed) {p : Phrase α}
    (hp : d.phrase = .ok p) : p.IsTidy passed := by
  obtain ⟨-, -, hp⟩ := bind_eq_ok_iff.1 hp
  obtain ⟨table, htable, hp⟩ := bind_eq_ok_iff.1 hp
  obtain ⟨condition, hcondition, hp⟩ := bind_eq_ok_iff.1 hp
  obtain ⟨-, -, hp⟩ := bind_eq_ok_iff.1 hp
  cases hp
  have hdelete : (Phrase.keyword "DELETE FROM" : Phrase α).IsTidy passed :=
    Phrase.isTidy_keyword fun _ => ⟨rfl, rfl⟩
  have hname : (Phrase.name table : Phrase α).IsTidy passed :=
    Phrase.isTidy_name (h.table.expect htable)
  have hwhere := Predicate.whereClause_tidy h.predicate hcondition
  have hreturning : (Projection.returning d.returning : Phrase α).IsTidy passed :=
    Projection.returning_tidy h.returning
  exact Phrase.isTidy_spaced (by simp [hdelete, hname, hwhere, hreturning])

end Delete

/-! ## Statements of any kind -/

namespace Recipe

/-- No call brings anything in the caller's words. -/
def IsRawFree : Recipe α → Prop
  | .select _ calls => ∀ call ∈ calls, call.IsRawFree
  | .count _ calls filters =>
    (∀ call ∈ calls, call.IsRawFree) ∧ Predicate.Call.AllRawFree filters
  | .insert _ calls => ∀ call ∈ calls, call.IsRawFree
  | .update _ calls => ∀ call ∈ calls, call.IsRawFree
  | .delete _ calls => ∀ call ∈ calls, call.IsRawFree

/-- The caller passes this name, for the table or in a call. -/
def Passes (x : Identifier) : Recipe α → Prop
  | .select table calls => Identifier.parse table = .ok x ∨ ∃ call ∈ calls, call.Passes x
  | .count table calls filters =>
    (Identifier.parse table = .ok x ∨ ∃ call ∈ calls, call.Passes x) ∨
      Predicate.Call.AnyPasses x filters
  | .insert table calls => Identifier.parse table = .ok x ∨ ∃ call ∈ calls, call.Passes x
  | .update table calls => Identifier.parse table = .ok x ∨ ∃ call ∈ calls, call.Passes x
  | .delete table calls => Identifier.parse table = .ok x ∨ ∃ call ∈ calls, call.Passes x

theorem phrase_tidy {r : Recipe α} (hr : r.IsRawFree) {p : Phrase α}
    (hp : r.statement.phrase = .ok p) : p.IsTidy fun x => r.Passes x := by
  cases r with
  | select table calls =>
    exact Select.phrase_tidy
      (Select.namedBy_ofCalls (fun _ hx => .inl hx) hr fun _ hx => .inr hx) hp
  | count table calls filters =>
    exact Count.phrase_tidy (Count.namedBy_ofCalls
      (Select.namedBy_ofCalls (fun _ hx => .inl (.inl hx)) hr.1 fun _ hx => .inl (.inr hx))
      hr.2 fun _ hx => .inr hx) hp
  | insert table calls =>
    exact Insert.phrase_tidy
      (Insert.namedBy_ofCalls (fun _ hx => .inl hx) hr fun _ hx => .inr hx) hp
  | update table calls =>
    exact Update.phrase_tidy
      (Update.namedBy_ofCalls (fun _ hx => .inl hx) hr fun _ hx => .inr hx) hp
  | delete table calls =>
    exact Delete.phrase_tidy
      (Delete.namedBy_ofCalls (fun _ hx => .inl hx) hr fun _ hx => .inr hx) hp

/-- The text of a statement in which nothing is in the caller's words is scanned to its end: every
quoted region is one quoted segment of a name that was passed, all other characters are letters,
digits, blanks and a few marks, the parentheses balance, and the placeholders are `$1`, `$2`, … for
the values in order. -/
theorem compile_wellFormed (r : Recipe α) (hr : r.IsRawFree) {query : Query α}
    (h : r.statement.compile = .ok query) :
    ∃ items, scan none query.sql.toList = some items ∧ print items = query.sql.toList ∧
      (∀ name, .quoted name ∈ items →
        ∃ x : Identifier, r.Passes x ∧ .quoted (String.ofList name) ∈ x.segments) ∧
      (∀ c, .char c ∈ items → isAllowed c = true) ∧
      depth 0 items = some 0 ∧
      parameters false items = (List.range' 1 query.values.length).map (Nat.toDigits 10) := by
  obtain ⟨p, hp, rfl⟩ := (Statement.compile_eq_ok_iff _ query).1 h
  have hlex := phrase_tidy hr hp 0 0
  have hprint : print (Piece.spell Piece.items 0 p.pieces) = p.query.sql.toList := by
    rw [Piece.print_spell, Phrase.query_eq, String.toList_ofList]
    rfl
  have hvalues : p.query.values = Piece.values p.pieces := by
    rw [Phrase.query_eq]
    rfl
  refine ⟨_, ?_, hprint, ?_, ?_, hlex.depth, ?_⟩
  · rw [← hprint, hlex.scan_print]
  · exact fun name hname => hlex.allowed _ hname
  · exact fun c hc => hlex.allowed _ hc
  · rw [hlex.parameters, hvalues]
    rfl

/-- A SELECT with names that try to get out of their place. -/
def hostile : Recipe Nat :=
  .select "\"film\"\"; DROP TABLE film\"" [
    .columns ["a$1", "\"(\""],
    .filter (.equal .and (.text "t.\"$2\"") 5),
    .order [⟨"b", "desc", none⟩],
    .limit 10]

/-- What it compiles to. -/
def hostileQuery : Query Nat where
  sql := "SELECT a$1, \"(\" FROM \"film\"\"; DROP TABLE film\" WHERE t.\"$2\" = $1 " ++
    "ORDER BY b DESC LIMIT $2"
  values := [5, 10]

theorem hostile_wellFormed :
    hostile.IsRawFree ∧ hostile.statement.compile = .ok hostileQuery ∧
      ∃ items, scan none hostileQuery.sql.toList = some items ∧ depth 0 items = some 0 ∧
        parameters false items = [['1'], ['2']] := by
  have hr : hostile.IsRawFree := by
    simp [hostile, IsRawFree, Select.Call.IsRawFree, Predicate.Call.IsRawFree]
  have hc : hostile.statement.compile = .ok hostileQuery := by decide +kernel
  obtain ⟨items, hscan, -, -, -, hdepth, hparameters⟩ := compile_wellFormed hostile hr hc
  exact ⟨hr, hc, items, hscan, hdepth, hparameters⟩

end Recipe

end ParamSql
