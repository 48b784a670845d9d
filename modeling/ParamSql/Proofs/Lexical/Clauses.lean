import ParamSql.Proofs.Lexical.Phrases
import ParamSql.Proofs.Predicate.Calls
import ParamSql.Statement

/-!
# Clauses in good order

Every clause of a statement is in good order, whatever names are in it, as long as nothing in it is
in the caller's words. A clause that is read when the statement compiles is in good order if it can
be read at all.

Results:
* `Predicate.phrase_tidy`: the conditions of a predicate.
* `Projection.selection_tidy`, `Join.clause_tidy`, `SortKey.clause_tidy`, `RowLock.clause_tidy`: the
  clauses of a SELECT.
* `Conflict.phrase_tidy`: the conflict clause of an INSERT.
-/

namespace ParamSql

variable {α : Type} {passed : Identifier → Prop}

open Phrase

/-! ## Predicates -/

theorem Joined.add_tidy {j : Option (Joined α)} (h : ∀ k, j = some k → k.phrase.IsTidy passed)
    {c : Junction × Phrase α} (hc : c.2.IsTidy passed) :
    ∀ k, Joined.add j c = some k → k.phrase.IsTidy passed := by
  obtain ⟨junction, next⟩ := c
  intro k hk
  cases j with
  | none =>
    cases hk
    exact hc
  | some j =>
    have hj := h j rfl
    have hoperand : j.operand.IsTidy passed := by
      unfold operand
      split
      · exact isTidy_parens hj
      · exact hj
    cases junction with
    | and =>
      cases hk
      exact isTidy_seq (fun _ => ⟨rfl, rfl⟩) rfl rfl (by simp [hoperand, hc])
    | or =>
      cases hk
      exact isTidy_seq (fun _ => ⟨rfl, rfl⟩) rfl rfl (by simp [hj, hc])

theorem Joined.phraseOf_tidy {cs : List (Junction × Phrase α)}
    (h : ∀ c ∈ cs, c.2.IsTidy passed) : (Joined.phraseOf cs).IsTidy passed := by
  have hfold : ∀ k, (cs.filter fun c => !c.2.isEmpty).foldl Joined.add none = some k →
      k.phrase.IsTidy passed :=
    List.foldlRecOn (motive := fun j => ∀ k, j = some k → k.phrase.IsTidy passed) _ Joined.add
      (b := none) (by simp) fun j hj c hc =>
        Joined.add_tidy hj (h c (List.mem_of_mem_filter hc))
  unfold phraseOf
  split
  · exact isTidy_empty
  · rename_i k hk
    exact hfold k hk

namespace Condition

/-- The columns of a single condition are among these, and nothing is in the caller's words. -/
def NamedBy (passed : Identifier → Prop) : Condition α → Prop
  | .equal pairs => ∀ pair ∈ pairs, passed pair.1
  | .among x _ _ => passed x
  | .raw _ => False
  | _ => True

theorem equality_tidy {pair : Identifier × α} (h : passed pair.1) :
    (equality pair).IsTidy passed :=
  isTidy_around (isTidy_name h) (fun _ => ⟨rfl, rfl⟩) rfl rfl (isTidy_value pair.2)

theorem equalities_tidy {pairs : List (Identifier × α)} (h : ∀ pair ∈ pairs, passed pair.1) :
    (equalities pairs).IsTidy passed := by
  match pairs with
  | [] => exact isTidy_empty
  | [pair] => exact equality_tidy (h pair (by simp))
  | pair :: pair' :: rest =>
    refine isTidy_parens (isTidy_seq (fun _ => ⟨rfl, rfl⟩) rfl rfl ?_)
    rw [List.forall_mem_map]
    exact fun p hp => equality_tidy (h p hp)

theorem membership_tidy {x : Identifier} (h : passed x) (vs : List α) (negated : Bool) :
    (membership x vs negated).IsTidy passed := by
  unfold membership
  split
  · cases negated <;> exact isTidy_keyword fun _ => ⟨rfl, rfl⟩
  · have hlist : (listed (vs.map .value)).IsTidy passed := by
      refine isTidy_listed ?_
      rw [List.forall_mem_map]
      exact fun v _ => isTidy_value v
    cases negated <;> exact isTidy_opened (isTidy_name h) (fun _ => ⟨rfl, rfl⟩) rfl rfl hlist

mutual

theorem phrase_tidy : ∀ c : Condition α, c.Every (NamedBy passed) → c.phrase.IsTidy passed
  | .equal _, h => equalities_tidy h
  | .among _ vs negated, h => membership_tidy h vs negated
  | .raw _, h => h.elim
  | .all, _ => isTidy_keyword fun _ => ⟨rfl, rfl⟩
  | .group conditions, h => by
    have hbody := Joined.phraseOf_tidy (phrases_tidy conditions h)
    rw [phrase, grouped]
    split
    · exact hbody
    · exact isTidy_parens hbody

theorem phrases_tidy : ∀ cs : List (Junction × Condition α), EveryOf (NamedBy passed) cs →
    ∀ c ∈ phrases cs, c.2.IsTidy passed
  | [], _ => by simp [phrases]
  | (junction, c) :: rest, h => by
    rw [phrases]
    exact List.forall_mem_cons.2 ⟨phrase_tidy c h.1, phrases_tidy rest h.2⟩

end

end Condition

namespace Predicate

theorem phrase_tidy {p : Predicate α}
    (h : Condition.EveryOf (Condition.NamedBy passed) p.conditions) : p.phrase.IsTidy passed :=
  Joined.phraseOf_tidy (Condition.phrases_tidy p.conditions h)

theorem compile_tidy {p : Predicate α}
    (h : Condition.EveryOf (Condition.NamedBy passed) p.conditions) {phrase : Phrase α}
    (hc : p.compile = .ok phrase) : phrase.IsTidy passed := by
  obtain ⟨-, rfl⟩ := (compile_eq_ok_iff p phrase).1 hc
  exact phrase_tidy h

theorem whereClause_tidy {p : Predicate α}
    (h : Condition.EveryOf (Condition.NamedBy passed) p.conditions) {phrase : Phrase α}
    (hc : p.whereClause = .ok phrase) : phrase.IsTidy passed := by
  obtain ⟨body, hbody, rfl⟩ := map_eq_ok_iff.1 hc
  exact isTidy_ledBy (fun _ => ⟨rfl, rfl⟩) rfl (compile_tidy h hbody)

end Predicate

/-! ## Column lists -/

namespace Projection

/-- The name in an entry. -/
def name? : Projection → Option Identifier
  | .column x => some x
  | .table x => some x
  | .all => none

/-- The name of the entry, if it has one, is among these. -/
def NamedBy (passed : Identifier → Prop) (entry : Projection) : Prop :=
  ∀ x, entry.name? = some x → passed x

theorem phrase_tidy {entry : Projection} (h : entry.NamedBy passed) :
    (entry.phrase : Phrase α).IsTidy passed := by
  cases entry with
  | column x => exact isTidy_name (h x rfl)
  | table x =>
    intro a
    have hk : Piece.IsKeyword a a ".*" := ⟨rfl, rfl⟩
    rw [phrase, pieces_concat]
    simpa [pieces] using ((isTidy_name (α := α) (h x rfl)) a).followed hk rfl
  | all => exact isTidy_keyword fun _ => ⟨rfl, rfl⟩

theorem selection_tidy {entries : List Projection} (h : ∀ e ∈ entries, e.NamedBy passed) :
    (selection entries : Phrase α).IsTidy passed := by
  unfold selection
  split
  · exact isTidy_keyword fun _ => ⟨rfl, rfl⟩
  · refine isTidy_listed ?_
    rw [List.forall_mem_map]
    intro e he
    refine phrase_tidy (h e ?_)
    rcases List.mem_append.1 he with he | he <;> exact List.mem_of_mem_filter he

theorem returning_tidy {entries : List Projection} (h : ∀ e ∈ entries, e.NamedBy passed) :
    (returning entries : Phrase α).IsTidy passed := by
  unfold returning
  split
  · exact isTidy_empty
  · exact isTidy_led (fun _ => ⟨rfl, rfl⟩) rfl (selection_tidy h)

end Projection

/-! ## Clauses of a SELECT -/

namespace Join

/-- The names of a join are among these, and its condition is not in the caller's words. -/
def NamedBy (passed : Identifier → Prop) (j : Join) : Prop :=
  passed j.table ∧ ∃ x y, j.condition = .columns x y ∧ passed x ∧ passed y

theorem phrase_tidy {j : Join} (h : j.NamedBy passed) : (j.phrase : Phrase α).IsTidy passed := by
  obtain ⟨htable, x, y, hcondition, hx, hy⟩ := h
  have hon : (conditionPhrase j.condition : Phrase α).IsTidy passed := by
    rw [hcondition]
    exact isTidy_around (isTidy_name hx) (fun _ => ⟨rfl, rfl⟩) rfl rfl (isTidy_name hy)
  have hrest : (concat [.name j.table, .keyword " ON ", conditionPhrase j.condition] :
      Phrase α).IsTidy passed :=
    isTidy_around (isTidy_name htable) (fun _ => ⟨rfl, rfl⟩) rfl rfl hon
  intro a
  have hpieces : (j.phrase : Phrase α).pieces = Piece.ofKeyword (keyword j.kind) ++
      (concat [.name j.table, .keyword " ON ", conditionPhrase j.condition]).pieces := by
    rw [phrase, pieces_concat, pieces_concat, List.flatMap_cons, pieces]
  have hk : Piece.IsKeyword a a (keyword j.kind) ∧ Piece.endsApart (keyword j.kind) = true := by
    cases j.kind <;> exact ⟨⟨rfl, rfl⟩, rfl⟩
  rw [hpieces]
  exact .led hk.1 hk.2 (hrest a)

theorem clause_tidy {joins : List Join} (h : ∀ j ∈ joins, j.NamedBy passed) :
    (clause joins : Phrase α).IsTidy passed := by
  refine isTidy_spaced ?_
  rw [List.forall_mem_map]
  exact fun j hj => phrase_tidy (h j hj)

end Join

/-- What is read from the text is among these names, if it is a name at all. -/
def ReadsTo (passed : Identifier → Prop) (name : String) : Prop :=
  ∀ x, Identifier.parse name = .ok x → passed x

theorem ReadsTo.expect {name : String} (h : ReadsTo passed name) {x : Identifier}
    (hx : Identifier.expect name = .ok x) : passed x := h x (mapError_eq_ok_iff.1 hx)

/-- Phrases that are made of checked items one by one. -/
theorem forall_of_mapM {β ε : Type} {f : β → Except ε (Phrase α)} {items : List β}
    {phrases : List (Phrase α)} (h : items.mapM f = .ok phrases)
    (hf : ∀ item ∈ items, ∀ p, f item = .ok p → p.IsTidy passed) :
    ∀ p ∈ phrases, p.IsTidy passed := by
  intro p hp
  obtain ⟨item, hitem, hphrase⟩ := (mem_of_mapM h).2 p hp
  exact hf item hitem p hphrase

/-- Names that are read from texts one by one. -/
theorem passed_of_mapM {names : List String} {xs : List Identifier}
    (h : names.mapM Identifier.expect = .ok xs) (hn : ∀ name ∈ names, ReadsTo passed name) :
    ∀ x ∈ xs, passed x := by
  intro x hx
  obtain ⟨name, hname, hread⟩ := (mem_of_mapM h).2 x hx
  exact (hn name hname).expect hread

namespace SortKey

theorem directionText_cases {k : SortKey} {text : String} (h : k.directionText = .ok text) :
    text = " ASC" ∨ text = " DESC" := by
  unfold directionText at h
  split at h
  · cases h
    exact .inl rfl
  · split at h
    · cases h
      exact .inr rfl
    · cases h

theorem nullsText_cases {k : SortKey} {text : String} (h : k.nullsText = .ok text) :
    text = "" ∨ text = " NULLS FIRST" ∨ text = " NULLS LAST" := by
  unfold nullsText at h
  split at h
  · cases h
    exact .inl rfl
  · split at h
    · cases h
      exact .inr (.inl rfl)
    · split at h
      · cases h
        exact .inr (.inr rfl)
      · cases h

theorem phrase_tidy {k : SortKey} (h : ReadsTo passed k.column) {p : Phrase α}
    (hp : k.phrase = .ok p) : p.IsTidy passed := by
  obtain ⟨column, hcolumn, hp⟩ := bind_eq_ok_iff.1 hp
  obtain ⟨direction, hdirection, hp⟩ := bind_eq_ok_iff.1 hp
  obtain ⟨nulls, hnulls, hp⟩ := bind_eq_ok_iff.1 hp
  cases hp
  intro a
  have hname := isTidy_name (α := α) (h.expect hcolumn) a
  have hfirst : Piece.Tidy passed a a
      ((name column : Phrase α).pieces ++ Piece.ofKeyword direction) := by
    rcases directionText_cases hdirection with rfl | rfl <;>
      exact hname.followed ⟨rfl, rfl⟩ rfl
  rw [pieces_concat, List.flatMap_cons, List.flatMap_cons, List.flatMap_cons, List.flatMap_nil,
    List.append_nil, ← List.append_assoc]
  rcases nullsText_cases hnulls with rfl | rfl | rfl
  · simpa [pieces, Piece.ofKeyword] using hfirst
  · exact hfirst.followed ⟨rfl, rfl⟩ rfl
  · exact hfirst.followed ⟨rfl, rfl⟩ rfl

theorem clause_tidy {keys : List SortKey} (h : ∀ k ∈ keys, ReadsTo passed k.column)
    {p : Phrase α} (hp : clause keys = .ok p) : p.IsTidy passed := by
  unfold clause at hp
  split at hp
  · cases hp
    exact isTidy_empty
  · obtain ⟨phrases, hphrases, rfl⟩ := map_eq_ok_iff.1 hp
    exact isTidy_led (fun _ => ⟨rfl, rfl⟩) rfl
      (isTidy_listed (forall_of_mapM hphrases fun k hk _ => phrase_tidy (h k hk)))

end SortKey

namespace RowLock

theorem phrase_tidy {l : RowLock} (h : ∀ x ∈ l.tables, passed x) :
    (l.phrase : Phrase α).IsTidy passed := by
  have hmode : (keyword (modeText l.mode) : Phrase α).IsTidy passed := by
    cases l.mode <;> exact isTidy_keyword fun _ => ⟨rfl, rfl⟩
  have hwait : (keyword (waitText l.wait) : Phrase α).IsTidy passed := by
    cases l.wait <;> exact isTidy_keyword fun _ => ⟨rfl, rfl⟩
  have htables : (ledBy "OF " (listed (l.tables.map name)) : Phrase α).IsTidy passed := by
    refine isTidy_ledBy (fun _ => ⟨rfl, rfl⟩) rfl (isTidy_listed ?_)
    rw [List.forall_mem_map]
    exact fun x hx => isTidy_name (h x hx)
  exact isTidy_spaced (by simp [hmode, hwait, htables])

theorem clause_tidy {locks : List RowLock} (h : ∀ l ∈ locks, ∀ x ∈ l.tables, passed x) :
    (clause locks : Phrase α).IsTidy passed := by
  refine isTidy_spaced ?_
  rw [List.forall_mem_map]
  exact fun l hl => phrase_tidy (h l hl)

end RowLock

/-! ## The conflict clause of an INSERT -/

/-- The last segment of the column is the one of a name among these. -/
def LastOf (passed : Identifier → Prop) (column : Identifier) : Prop :=
  ∃ x, passed x ∧ column.last = x.last

theorem LastOf.isTidy {column : Identifier} (h : LastOf passed column) :
    (Phrase.name column.last : Phrase α).IsTidy passed := by
  obtain ⟨x, hx, he⟩ := h
  rw [he]
  exact isTidy_last hx

/-- The names in a target. -/
def ConflictTarget.names : ConflictTarget → List String
  | .columns names => names
  | .constraint c => [c]

theorem ConflictTarget.phrase_tidy {target : ConflictTarget}
    (h : ∀ n ∈ target.names, ReadsTo passed n) {p : Phrase α} (hp : target.phrase = .ok p) :
    p.IsTidy passed := by
  cases target with
  | columns names =>
    simp only [phrase] at hp
    split at hp
    · cases hp
    · obtain ⟨columns, hcolumns, hp⟩ := bind_eq_ok_iff.1 hp
      cases hp
      refine isTidy_parens (isTidy_listed ?_)
      rw [List.forall_mem_map]
      exact fun x hx => isTidy_name (passed_of_mapM hcolumns h x hx)
  | constraint c =>
    obtain ⟨x, hx, hp⟩ := bind_eq_ok_iff.1 hp
    cases hp
    exact isTidy_led (fun _ => ⟨rfl, rfl⟩) rfl
      (isTidy_name (h c (by simp [names]) x (mapError_eq_ok_iff.1 hx)))

theorem excludedAll_tidy {columns : List Identifier} (h : ∀ c ∈ columns, LastOf passed c)
    {p : Phrase α} (hp : excludedAll columns = .ok p) : p.IsTidy passed := by
  unfold excludedAll at hp
  split at hp
  · cases hp
  · cases hp
    refine isTidy_listed ?_
    rw [List.forall_mem_map]
    intro c hc
    exact isTidy_around (h c hc).isTidy (fun _ => ⟨rfl, rfl⟩) rfl rfl (h c hc).isTidy

/-- The names in an update. -/
def UpdateSet.names : UpdateSet α → List String
  | .inserted => []
  | .columns names => names
  | .values set => set.keys

theorem UpdateSet.phrase_tidy {set : UpdateSet α} (h : ∀ n ∈ set.names, ReadsTo passed n)
    {inserted : List Identifier} (hi : ∀ c ∈ inserted, LastOf passed c) {p : Phrase α}
    (hp : set.phrase inserted = .ok p) : p.IsTidy passed := by
  cases set with
  | inserted => exact excludedAll_tidy hi hp
  | columns names =>
    obtain ⟨columns, hcolumns, hp⟩ := bind_eq_ok_iff.1 hp
    exact excludedAll_tidy (fun c hc => ⟨c, passed_of_mapM hcolumns h c hc, rfl⟩) hp
  | values set =>
    simp only [phrase] at hp
    split at hp
    · cases hp
    · obtain ⟨columns, hcolumns, hp⟩ := bind_eq_ok_iff.1 hp
      cases hp
      have hnames : (parens (listed (columns.map fun column => .name column.last)) :
          Phrase α).IsTidy passed := by
        refine isTidy_parens (isTidy_listed ?_)
        rw [List.forall_mem_map]
        exact fun c hc => isTidy_last (passed_of_mapM hcolumns h c hc)
      have hvalues : (listed (set.values.map .value)).IsTidy passed := by
        refine isTidy_listed ?_
        rw [List.forall_mem_map]
        exact fun v _ => isTidy_value v
      exact isTidy_opened hnames (fun _ => ⟨rfl, rfl⟩) rfl rfl hvalues

/-- The names in an action. -/
def ConflictAction.names : ConflictAction α → List String
  | .nothing => []
  | .update set => set.names

namespace Conflict

theorem actionPhrase_tidy {c : Conflict α} (h : ∀ n ∈ c.action.names, ReadsTo passed n)
    {inserted : List Identifier} (hi : ∀ column ∈ inserted, LastOf passed column)
    {filter : Phrase α} (hf : filter.IsTidy passed) {p : Phrase α}
    (hp : c.actionPhrase inserted filter = .ok p) : p.IsTidy passed := by
  have hwhere : (ledBy "WHERE " filter).IsTidy passed :=
    isTidy_ledBy (fun _ => ⟨rfl, rfl⟩) rfl hf
  unfold actionPhrase at hp
  split at hp
  · split at hp
    · cases hp
    · cases hp
      have hnothing : (keyword "DO NOTHING" : Phrase α).IsTidy passed :=
        isTidy_keyword fun _ => ⟨rfl, rfl⟩
      exact isTidy_spaced (by simp [hwhere, hnothing])
  · rename_i set hset
    obtain ⟨assignments, hassignments, rfl⟩ := map_eq_ok_iff.1 hp
    rw [hset] at h
    have hupdate : (keyword "DO UPDATE SET" : Phrase α).IsTidy passed :=
      isTidy_keyword fun _ => ⟨rfl, rfl⟩
    have hlist := UpdateSet.phrase_tidy h hi hassignments
    exact isTidy_spaced (by simp [hwhere, hupdate, hlist])

theorem phrase_tidy {c : Conflict α} (ht : ∀ n ∈ c.target.names, ReadsTo passed n)
    (ha : ∀ n ∈ c.action.names, ReadsTo passed n)
    (hf : Condition.EveryOf (Condition.NamedBy passed) c.filter.conditions)
    {inserted : List Identifier} (hi : ∀ column ∈ inserted, LastOf passed column)
    {p : Phrase α} (hp : c.phrase inserted = .ok p) : p.IsTidy passed := by
  obtain ⟨target, htarget, hp⟩ := bind_eq_ok_iff.1 hp
  obtain ⟨filter, hfilter, hp⟩ := bind_eq_ok_iff.1 hp
  obtain ⟨action, haction, hp⟩ := bind_eq_ok_iff.1 hp
  cases hp
  have hconflict : (keyword "ON CONFLICT" : Phrase α).IsTidy passed :=
    isTidy_keyword fun _ => ⟨rfl, rfl⟩
  have htidy := ConflictTarget.phrase_tidy ht htarget
  have hrest := actionPhrase_tidy ha hi (Predicate.compile_tidy hf hfilter) haction
  exact isTidy_spaced (by simp [hconflict, htidy, hrest])

end Conflict

end ParamSql
