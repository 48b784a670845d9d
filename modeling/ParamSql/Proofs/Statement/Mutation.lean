import ParamSql.Proofs.Predicate.Emptiness
import ParamSql.Proofs.Rejections.Names
import ParamSql.Proofs.Statement.Fields

/-!
# The guard of UPDATE and DELETE

An UPDATE or DELETE that is built by any calls with valid names compiles exactly if one of the calls
brings a real condition. What it compiles to has a WHERE clause then, with the text of the
predicate; there is no way to an UPDATE or DELETE of all rows but to ask for it.

Results:
* `fault_ofCalls`: with valid names no fault is recorded.
* `guarded_mutations`: when UPDATE and DELETE compile, and to what.
-/

namespace ParamSql

variable {α : Type}

open Predicate (Call)

theorem Projection.fault_parseAll {names : List String} (h : ∀ name ∈ names, IsEntry name) :
    (Projection.parseAll names).2 = none := by
  rw [fault_parseAll_eq, (entryFaults_eq_nil_iff names).2 h]
  rfl

theorem IsName.expect {name : String} (h : IsName name) :
    ∃ x, Identifier.expect name = .ok x ∧ x.chars = name.toList := by
  obtain ⟨x, hx⟩ := h
  exact ⟨x, Identifier.expect_ok hx, Identifier.chars_of_parse hx⟩

/-! ## Statements from calls -/

namespace Delete

/-- The names of a call are valid, and its templates have a value for each placeholder. -/
def Call.IsValid : Call α → Prop
  | .filter call => call.IsValid
  | .returning names => ∀ name ∈ names, IsEntry name

theorem fault_ofCalls (table : String) {calls : List (Call α)}
    (h : ∀ call ∈ calls, call.IsValid) : (ofCalls table calls).fault = none := by
  refine List.foldlRecOn (motive := fun d => d.fault = none) calls apply (b := ofTable table) rfl
    fun d hd call hcall => ?_
  cases call with
  | filter call => exact hd
  | returning names =>
    exact Option.or_eq_none_iff.2 ⟨hd, Projection.fault_parseAll (h _ hcall)⟩

theorem allValid_filters {calls : List (Call α)} (h : ∀ call ∈ calls, call.IsValid) :
    Predicate.Call.AllValid (calls.filterMap Call.filter?) := by
  induction calls with
  | nil => trivial
  | cons call rest ih =>
    obtain ⟨hcall, hrest⟩ := List.forall_mem_cons.1 h
    cases call with
    | filter call => exact ⟨hcall, ih hrest⟩
    | returning names => exact ih hrest

end Delete

namespace Update

/-- The names of a call are valid, and its templates have a value for each placeholder. -/
def Call.IsValid : Call α → Prop
  | .set column _ => IsName column
  | .setAll columns => ∀ column ∈ columns.keys, IsName column
  | .filter call => call.IsValid
  | .returning names => ∀ name ∈ names, IsEntry name

/-- The call sets a column. -/
def Call.IsSet : Call α → Prop
  | .set _ _ => True
  | .setAll columns => columns.entries ≠ []
  | _ => False

theorem fault_ofCalls (table : String) {calls : List (Call α)}
    (h : ∀ call ∈ calls, call.IsValid) : (ofCalls table calls).fault = none := by
  refine List.foldlRecOn (motive := fun u => u.fault = none) calls apply (b := ofTable table) rfl
    fun u hu call hcall => ?_
  cases call with
  | returning names =>
    exact Option.or_eq_none_iff.2 ⟨hu, Projection.fault_parseAll (h _ hcall)⟩
  | set column assigned => exact hu
  | setAll columns => exact hu
  | filter call => exact hu

theorem allValid_filters {calls : List (Call α)} (h : ∀ call ∈ calls, call.IsValid) :
    Predicate.Call.AllValid (calls.filterMap Call.filter?) := by
  induction calls with
  | nil => trivial
  | cons call rest ih =>
    obtain ⟨hcall, hrest⟩ := List.forall_mem_cons.1 h
    cases call with
    | filter call => exact ⟨hcall, ih hrest⟩
    | set column assigned => exact ih hrest
    | setAll columns => exact ih hrest
    | returning names => exact ih hrest

/-! ### The SET list -/

/-- A call that sets a column leaves a SET list, and no call takes it away. -/
theorem assignments_apply_ne_nil {u : Update α} {call : Call α}
    (h : u.assignments.entries ≠ [] ∨ call.IsSet) : (u.apply call).assignments.entries ≠ [] := by
  cases call with
  | set column assigned => exact OrderedMap.setEntry_ne_nil _ _ _
  | setAll columns =>
    refine OrderedMap.entries_setAll_ne_nil (h.imp id fun hset => ?_)
    exact mt List.map_eq_nil_iff.1 hset
  | filter call => exact h.resolve_right id
  | returning names => exact h.resolve_right id

theorem assignments_ofCalls_ne_nil (table : String) {calls : List (Call α)}
    (h : ∃ call ∈ calls, call.IsSet) : (ofCalls table calls).assignments.entries ≠ [] := by
  obtain ⟨call, hcall, hset⟩ := h
  obtain ⟨before, after, rfl⟩ := List.append_of_mem hcall
  rw [ofCalls, List.foldl_append, List.foldl_cons]
  exact List.foldlRecOn (motive := fun u => u.assignments.entries ≠ []) after apply
    (assignments_apply_ne_nil (.inr hset)) fun u hu call _ => assignments_apply_ne_nil (.inl hu)

/-- The columns that are set are those that calls name. -/
theorem assignments_ofCalls (table : String) {calls : List (Call α)}
    (h : ∀ call ∈ calls, call.IsValid) :
    ∀ entry ∈ (ofCalls table calls).assignments.entries, IsName entry.1 := by
  have hempty : ∀ entry ∈ (ofTable table : Update α).assignments.entries, IsName entry.1 := by
    intro entry hentry
    cases hentry
  refine List.foldlRecOn (motive := fun u => ∀ entry ∈ u.assignments.entries, IsName entry.1)
    calls apply hempty fun u hu call hcall => ?_
  cases call with
  | set column assigned => exact OrderedMap.forall_entries_set hu (h _ hcall)
  | setAll columns =>
    refine OrderedMap.forall_entries_setAll (fun pair hpair => h _ hcall pair.1 ?_) hu
    rw [← OrderedMap.keys_map Assigned.value]
    exact List.mem_map_of_mem hpair
  | filter call => exact hu
  | returning names => exact hu

/-- With valid names the SET list can be written. -/
theorem setClause_ofCalls (table : String) {calls : List (Call α)}
    (h : ∀ call ∈ calls, call.IsValid) (hset : ∃ call ∈ calls, call.IsSet) :
    ∃ assignments, (ofCalls table calls).assignments.entries.mapM assignment = .ok assignments ∧
      (ofCalls table calls).setClause = .ok (.concat [.keyword "SET ", .listed assignments]) := by
  have hall : ∀ entry ∈ (ofCalls table calls).assignments.entries,
      ∃ phrase, assignment entry = .ok phrase := by
    intro entry hentry
    obtain ⟨x, hx, -⟩ := (assignments_ofCalls table h entry hentry).expect
    exact exists_map_eq_ok_iff.2 ⟨x, hx⟩
  obtain ⟨assignments, hread⟩ := exists_mapM_eq_ok_iff.2 hall
  refine ⟨assignments, hread, ?_⟩
  have hne : (ofCalls table calls).assignments.isEmpty = false := by
    simpa [OrderedMap.isEmpty] using assignments_ofCalls_ne_nil table hset
  rw [setClause, hne, hread]
  rfl

end Update

/-! ## The guard -/

theorem Predicate.whereClause_eq {p : Predicate α} (h : p.fault = none) :
    p.whereClause = .ok (.ledBy "WHERE " p.phrase) := by
  rw [whereClause, (compile_eq_ok_iff p _).2 ⟨h, rfl⟩]
  rfl

/-- A RETURNING clause behind a statement. -/
theorem chars_returning (n : Nat) (entries : List Projection) :
    (Phrase.ledBy " " (Projection.returning entries : Phrase α)).chars n = [] ∨
      " RETURNING ".toList <+:
        (Phrase.ledBy " " (Projection.returning entries : Phrase α)).chars n := by
  unfold Projection.returning
  split
  · exact .inl rfl
  · refine .inr ⟨(Projection.selection entries : Phrase α).chars n, ?_⟩
    have hne : (Phrase.concat [.keyword "RETURNING ", Projection.selection entries] :
        Phrase α).isEmpty = false := rfl
    simp only [Phrase.chars, Phrase.spell]
    rw [Phrase.pieces_ledBy, hne, Phrase.pieces_concat]
    simp [Piece.spell_append, Phrase.pieces]

namespace Statement

/-- The statement compiles exactly if one of the filters is a real condition. Then its text is the
head, WHERE and the text of the predicate, which is not empty, and perhaps a RETURNING clause. -/
structure GuardedBy (s : Statement α) (filters : List (Call α)) (head : Phrase α) : Prop where
  compiles_iff : (∃ query, s.compile = .ok query) ↔ Call.anyReal filters = true
  refused : Call.anyReal filters = false → s.compile = .error .noConditions
  text : ∀ query, s.compile = .ok query → ∃ condition rest,
    (Predicate.ofCalls filters).compile = .ok condition ∧
      condition.chars head.values.length ≠ [] ∧
      query.sql.toList = head.chars 0 ++ " WHERE ".toList ++
        condition.chars head.values.length ++ rest ∧
      (rest = [] ∨ " RETURNING ".toList <+: rest)

/-- The text of a head with a WHERE clause behind it. -/
theorem chars_guarded {first condition : Phrase α} (middle : List (Phrase α))
    (hfirst : first.isEmpty = false) (hc : condition.isEmpty = false) (last : Phrase α) :
    ∃ n, (Phrase.spaced (first :: (middle ++ [.ledBy "WHERE " condition, last]))).chars 0 =
      (Phrase.spaced (first :: middle)).chars 0 ++ " WHERE ".toList ++
        condition.chars (Phrase.spaced (first :: middle)).values.length ++
        (Phrase.ledBy " " last).chars n := by
  have hhead := Phrase.pieces_seq_cons " " hfirst middle
  have hwhere : (Phrase.ledBy " " (.ledBy "WHERE " condition)).pieces =
      .keyword " " :: .keyword "WHERE " :: condition.pieces := by
    have hne : (Phrase.ledBy "WHERE " condition).isEmpty = false := by
      rw [Phrase.ledBy, hc]
      rfl
    rw [Phrase.pieces_ledBy, hne, Phrase.pieces_ledBy, hc]
    rfl
  have hpieces : (Phrase.spaced (first :: (middle ++ [.ledBy "WHERE " condition, last]))).pieces =
      (Phrase.spaced (first :: middle)).pieces ++ ([.keyword " ", .keyword "WHERE "] ++
        (condition.pieces ++ (Phrase.ledBy " " last).pieces)) := by
    rw [Phrase.spaced, Phrase.pieces_seq_cons " " hfirst, Phrase.spaced, hhead,
      List.flatMap_append, List.append_assoc]
    simp [hwhere]
  refine ⟨(Phrase.spaced (first :: middle)).values.length + 0 + condition.values.length, ?_⟩
  rw [Phrase.chars, Phrase.spell, hpieces, Piece.spell_append, Piece.spell_append,
    Piece.spell_append, List.append_assoc, List.append_assoc, Nat.zero_add]
  rfl

/-- A statement that is written with the text of its predicate behind WHERE. -/
theorem text_guarded {s : Statement α} {filters : List (Call α)} (hv : Call.AllValid filters)
    (he : (Predicate.ofCalls filters).isEmpty = false) {first : Phrase α}
    (hfirst : first.isEmpty = false) (middle : List (Phrase α)) (entries : List Projection)
    (hs : s.phrase = .ok (.spaced (first :: (middle ++
      [.ledBy "WHERE " (Predicate.ofCalls filters).phrase, Projection.returning entries]))))
    {query : Query α} (hquery : s.compile = .ok query) :
    ∃ condition rest, (Predicate.ofCalls filters).compile = .ok condition ∧
      condition.chars (Phrase.spaced (first :: middle)).values.length ≠ [] ∧
      query.sql.toList = (Phrase.spaced (first :: middle)).chars 0 ++ " WHERE ".toList ++
        condition.chars (Phrase.spaced (first :: middle)).values.length ++ rest ∧
      (rest = [] ∨ " RETURNING ".toList <+: rest) := by
  have hfault : (Predicate.ofCalls filters).fault = none := (Predicate.fault_ofCalls filters).2 hv
  obtain ⟨phrase, hphrase, rfl⟩ := (compile_eq_ok_iff s query).1 hquery
  obtain rfl := Except.ok.inj (hs.symm.trans hphrase)
  obtain ⟨n, hchars⟩ := chars_guarded middle hfirst he (Projection.returning entries)
  refine ⟨_, _, (Predicate.compile_eq_ok_iff _ _).2 ⟨hfault, rfl⟩, ?_, ?_,
    chars_returning (α := α) n entries⟩
  · intro hnil
    have hempty := (Phrase.chars_eq_nil_iff _ _).1 hnil
    rw [Predicate.isEmpty, hempty] at he
    cases he
  · rw [Phrase.query_eq, String.toList_ofList, hchars]

/-- A statement that asks its predicate for conditions is guarded. -/
theorem guardedBy_of_phrase {s : Statement α} {filters : List (Call α)}
    (hv : Call.AllValid filters) {first : Phrase α} (hfirst : first.isEmpty = false)
    (middle : List (Phrase α)) (entries : List Projection)
    (hs : s.phrase = if (Predicate.ofCalls filters).isEmpty then .error .noConditions
      else .ok (.spaced (first :: (middle ++ [.ledBy "WHERE " (Predicate.ofCalls filters).phrase,
        Projection.returning entries])))) :
    s.GuardedBy filters (.spaced (first :: middle)) := by
  have hreal := Predicate.isEmpty_ofCalls hv
  cases he : (Predicate.ofCalls filters).isEmpty with
  | true =>
    have hnone : Call.anyReal filters = false := by
      rw [he] at hreal
      simpa using hreal
    have hcompile : s.compile = .error .noConditions := by
      rw [compile, hs, he]
      rfl
    refine ⟨?_, fun _ => hcompile, ?_⟩
    · simp [hcompile, hnone]
    · simp [hcompile]
  | false =>
    have hsome : Call.anyReal filters = true := hreal.1 he
    rw [he, if_neg Bool.false_ne_true] at hs
    refine ⟨iff_of_true ⟨_, (compile_eq_ok_iff s _).2 ⟨_, hs, rfl⟩⟩ hsome, ?_, ?_⟩
    · simp [hsome]
    · exact fun query hquery => text_guarded hv he hfirst middle entries hs hquery

end Statement

/-! ## Statements -/

theorem Delete.guardedBy {table : String} {x : Identifier} (ht : Identifier.parse table = .ok x)
    {calls : List (Delete.Call α)} (h : ∀ call ∈ calls, call.IsValid) :
    (Statement.delete (ofCalls table calls)).GuardedBy (calls.filterMap Call.filter?)
      (.spaced [.keyword "DELETE FROM", .name x]) := by
  have hv := allValid_filters h
  have hfault := (Predicate.fault_ofCalls _).2 hv
  refine Statement.guardedBy_of_phrase hv rfl [.name x] (ofCalls table calls).returning ?_
  rw [Statement.phrase, phrase, fault_ofCalls table h, table_ofCalls, Identifier.expect_ok ht,
    predicate_ofCalls, Predicate.whereClause_eq hfault, Predicate.require]
  split <;> rfl

theorem Update.guardedBy {table : String} {x : Identifier} (ht : Identifier.parse table = .ok x)
    {calls : List (Update.Call α)} (h : ∀ call ∈ calls, call.IsValid)
    (hset : ∃ call ∈ calls, call.IsSet) :
    ∃ assignments, (ofCalls table calls).assignments.entries.mapM assignment = .ok assignments ∧
      (Statement.update (ofCalls table calls)).GuardedBy (calls.filterMap Call.filter?)
        (.spaced [.keyword "UPDATE", .name x,
          .concat [.keyword "SET ", .listed assignments]]) := by
  obtain ⟨assignments, hread, hclause⟩ := setClause_ofCalls table h hset
  refine ⟨assignments, hread, ?_⟩
  have hv := allValid_filters h
  have hfault := (Predicate.fault_ofCalls _).2 hv
  refine Statement.guardedBy_of_phrase hv rfl [.name x, _] (ofCalls table calls).returning ?_
  rw [Statement.phrase, phrase, fault_ofCalls table h, table_ofCalls, Identifier.expect_ok ht,
    hclause, predicate_ofCalls, Predicate.whereClause_eq hfault, Predicate.require]
  split <;> rfl

/-- A DELETE, and an UPDATE that sets a column, compile exactly if one of their filters is a real
condition, and are refused for want of conditions otherwise. Their text has the text of the
predicate behind WHERE then. -/
theorem guarded_mutations {table : String} {x : Identifier}
    (ht : Identifier.parse table = .ok x) {deletes : List (Delete.Call α)}
    (hd : ∀ call ∈ deletes, call.IsValid) {updates : List (Update.Call α)}
    (hu : ∀ call ∈ updates, call.IsValid) (hset : ∃ call ∈ updates, call.IsSet) :
    Rejection.noConditions.message = "no WHERE conditions" ∧
      (Statement.delete (Delete.ofCalls table deletes)).GuardedBy
        (deletes.filterMap Delete.Call.filter?) (.spaced [.keyword "DELETE FROM", .name x]) ∧
      ∃ assignments, (Update.ofCalls table updates).assignments.entries.mapM Update.assignment =
          .ok assignments ∧
        (Statement.update (Update.ofCalls table updates)).GuardedBy
          (updates.filterMap Update.Call.filter?)
          (.spaced [.keyword "UPDATE", .name x, .concat [.keyword "SET ", .listed assignments]]) :=
  ⟨rfl, Delete.guardedBy ht hd, Update.guardedBy ht hu hset⟩

/-- A condition on no values is a real one. -/
def filmDeletes : List (Delete.Call Nat) := [.filter (.oneOf .and (.text "film_id") [])]

/-- A group without conditions is none. -/
def filmUpdates : List (Update.Call Nat) :=
  [.filter (.group .and [.raw .or ""]), .set "title" (.value 7)]

theorem guarded_film :
    (∃ query, (Statement.delete (Delete.ofCalls "film" filmDeletes)).compile = .ok query) ∧
      (Statement.update (Update.ofCalls "film" filmUpdates)).compile = .error .noConditions := by
  have hd : ∀ call ∈ filmDeletes, call.IsValid := List.forall_mem_singleton.2 ⟨_, rfl⟩
  have hu : ∀ call ∈ filmUpdates, call.IsValid :=
    List.forall_mem_cons.2 ⟨⟨trivial, trivial⟩, List.forall_mem_singleton.2 ⟨_, rfl⟩⟩
  have hset : ∃ call ∈ filmUpdates, call.IsSet :=
    ⟨.set "title" (.value 7), by simp [filmUpdates], trivial⟩
  have ht : Identifier.parse "film" = .ok (.ofSegment (.plain "film") rfl) := rfl
  obtain ⟨-, hdelete, _, -, hupdate⟩ := guarded_mutations ht hd hu hset
  exact ⟨hdelete.compiles_iff.2 rfl, hupdate.refused rfl⟩

end ParamSql
