import ParamSql.Proofs.Reading.Pieces

/-!
# What the text of a predicate says

A list of conditions says what they say one by one, each tied to all those before it by its
junction. The text says the same when it is read by the rules of SQL: parentheses are put around a
text with OR in front of AND, and the flag of `Joined` tells whether there is one. This is so for
every way of reading that takes the caller's words as single conditions.

Results:
* `joinedMeans_add`: one condition more keeps the flag in step with the text.
* `says_phrase`, `phrases_say`: every condition is written as an operand that says it.
* `readsAs_iff`: the text of a predicate is read as what its conditions say, and in no other way.
-/

namespace ParamSql

variable {α : Type}

namespace Condition

mutual

/-- Every single condition has a property, those in groups included. -/
def Every (P : Condition α → Prop) : Condition α → Prop
  | .group conditions => EveryOf P conditions
  | c => P c

/-- Every single condition of a list has a property, those in groups included. -/
def EveryOf (P : Condition α → Prop) : List (Junction × Condition α) → Prop
  | [] => True
  | (_, c) :: rest => Every P c ∧ EveryOf P rest

end

theorem everyOf_append {P : Condition α → Prop} (first second : List (Junction × Condition α)) :
    EveryOf P (first ++ second) ↔ EveryOf P first ∧ EveryOf P second := by
  induction first with
  | nil => simp [EveryOf]
  | cons c rest ih => simp [EveryOf, ih, and_assoc]

/-- A condition in the caller's words has nothing else in it. -/
def InWords : Condition α → Prop
  | .raw p => ∀ q ∈ p.pieces, q.IsWords
  | _ => True

/-- What an equality says. -/
def comparison (pair : Identifier × α) : Formula α := .test (.equal pair.1.chars pair.2)

mutual

/-- What a condition says; nothing if it has no text. -/
def formula : Condition α → Option (Formula α)
  | .equal pairs => Formula.conjunction (pairs.map comparison)
  | .among x vs negated =>
    some (if vs.isEmpty then .const negated else .test (.among x.chars vs negated))
  | .raw p => if p.isEmpty then none else some (.test (.words (p.pieces.filterMap Piece.part?)))
  | .all => some (.const true)
  | .group conditions => Formula.fold (formulas conditions)

/-- What the conditions of a list say that have text. -/
def formulas : List (Junction × Condition α) → List (Junction × Formula α)
  | [] => []
  | (junction, c) :: rest => ((formula c).map (junction, ·)).toList ++ formulas rest

end

theorem formulas_append (first second : List (Junction × Condition α)) :
    formulas (first ++ second) = formulas first ++ formulas second := by
  induction first with
  | nil => rfl
  | cons c rest ih => rw [List.cons_append, formulas, formulas, ih, List.append_assoc]

end Condition

/-! ## Tying written conditions -/

/-- The phrase is a condition of this level that says this, or has no text and says nothing. -/
def Phrase.Says (r : Reading α) (level : Precedence) (p : Phrase α) : Option (Formula α) → Prop
  | none => p.isEmpty = true
  | some f => p.isEmpty = false ∧ r.Means level p.pieces f

variable {r : Reading α}

/-- A condition with text is written as a single condition that says it. -/
def SaysTied (r : Reading α) (c : Junction × Phrase α) (d : Junction × Formula α) : Prop :=
  c.1 = d.1 ∧ c.2.isEmpty = false ∧ r.Means r.single c.2.pieces d.2

/-- The level of a text, by whether there is an OR at its top. -/
def levelOf (hasOr : Bool) : Precedence := if hasOr then .disjunction else .conjunction

/-- The conditions written so far say this, and the flag is right about their text. -/
def JoinedMeans (r : Reading α) : Option (Joined α) → Option (Formula α) → Prop
  | none, none => True
  | some j, some f => j.phrase.isEmpty = false ∧ r.Means (levelOf j.hasOr) j.phrase.pieces f
  | _, _ => False

theorem isEmpty_pair {p q : Phrase α} (separator : String) (hp : p.isEmpty = false) :
    (Phrase.seq separator [p, q]).isEmpty = false := by
  simp [Phrase.isEmpty_seq, hp]

theorem pieces_pair {p q : Phrase α} (separator : String) (hp : p.isEmpty = false)
    (hq : q.isEmpty = false) : (Phrase.seq separator [p, q]).pieces =
      p.pieces ++ (Piece.ofKeyword separator ++ q.pieces) := by
  simp [Phrase.pieces_seq, hp, hq, Piece.joined]

theorem means_disjunction {hasOr : Bool} {ps : List (Piece α)} {f : Formula α}
    (h : r.Means (levelOf hasOr) ps f) : r.Means .disjunction ps f := by
  cases hasOr with
  | true => exact h
  | false => exact r.disjunction h

/-- A text in front of AND, with parentheses where they are needed. -/
theorem means_operand {j : Joined α} {f : Formula α} (he : j.phrase.isEmpty = false)
    (h : r.Means (levelOf j.hasOr) j.phrase.pieces f) :
    j.operand.isEmpty = false ∧ r.Means .conjunction j.operand.pieces f := by
  obtain ⟨phrase, hasOr⟩ := j
  cases hasOr with
  | false => exact ⟨he, h⟩
  | true =>
    refine ⟨rfl, ?_⟩
    change r.Means .conjunction phrase.parens.pieces f
    rw [Phrase.pieces_parens]
    exact r.conjunction (r.group h)

/-- One condition more keeps the flag in step with the text. -/
theorem joinedMeans_add {j : Option (Joined α)} {f : Option (Formula α)} (h : JoinedMeans r j f)
    {c : Junction × Phrase α} {d : Junction × Formula α} (hc : SaysTied r c d) :
    JoinedMeans r (Joined.add j c) (Junction.tie Junction.join f d) := by
  obtain ⟨junction, next⟩ := c
  obtain ⟨junction', g⟩ := d
  obtain ⟨rfl, hne, hnext⟩ := hc
  cases j with
  | none =>
    cases f with
    | some f => exact h.elim
    | none => exact ⟨hne, r.conjunction hnext⟩
  | some j =>
    cases f with
    | none => exact h.elim
    | some f =>
      obtain ⟨hj, hmeans⟩ := h
      cases junction with
      | and =>
        obtain ⟨ho, hoperand⟩ := means_operand hj hmeans
        refine ⟨isEmpty_pair " AND " ho, ?_⟩
        change r.Means .conjunction (Phrase.seq " AND " [j.operand, next]).pieces (.and f g)
        rw [pieces_pair " AND " ho hne]
        exact r.and hoperand hnext
      | or =>
        refine ⟨isEmpty_pair " OR " hj, ?_⟩
        change r.Means .disjunction (Phrase.seq " OR " [j.phrase, next]).pieces (.or f g)
        rw [pieces_pair " OR " hj hne]
        exact r.or (means_disjunction hmeans) hnext

theorem joinedMeans_foldl {cs : List (Junction × Phrase α)} {ds : List (Junction × Formula α)}
    (hcs : List.Forall₂ (SaysTied r) cs ds) {j : Option (Joined α)} {f : Option (Formula α)}
    (h : JoinedMeans r j f) :
    JoinedMeans r (cs.foldl Joined.add j) (ds.foldl (Junction.tie Junction.join) f) := by
  induction hcs generalizing j f with
  | nil => exact h
  | cons hc _ ih => exact ih (joinedMeans_add h hc)

/-- The text of written conditions says what they say, tied in order. -/
theorem says_phraseOf {cs : List (Junction × Phrase α)} {ds : List (Junction × Formula α)}
    (h : List.Forall₂ (SaysTied r) (cs.filter fun c => !c.2.isEmpty) ds) :
    (Joined.phraseOf cs).Says r .disjunction (Formula.fold ds) := by
  have hj : JoinedMeans r ((cs.filter fun c => !c.2.isEmpty).foldl Joined.add none)
      (Formula.fold ds) := joinedMeans_foldl h (j := none) (f := none) trivial
  unfold Joined.phraseOf
  cases hs : (cs.filter fun c => !c.2.isEmpty).foldl Joined.add none with
  | none =>
    cases hf : Formula.fold ds with
    | none => rfl
    | some f =>
      rw [hs, hf] at hj
      exact hj.elim
  | some j =>
    cases hf : Formula.fold ds with
    | none =>
      rw [hs, hf] at hj
      exact hj.elim
    | some f =>
      rw [hs, hf] at hj
      exact ⟨hj.1, means_disjunction hj.2⟩

/-! ## Conditions -/

namespace Condition

theorem pieces_equality (pair : Identifier × α) :
    (equality pair).pieces = [.name pair.1, .keyword " = ", .value pair.2] := by
  simp [equality, Phrase.pieces_concat, Phrase.pieces, Piece.ofKeyword]

theorem isEmpty_equality (pair : Identifier × α) : (equality pair).isEmpty = false := by
  simp [equality, Phrase.concat, Phrase.isEmpty_seq, Phrase.isEmpty]

theorem equality_means (r : Reading α) (pair : Identifier × α) :
    r.Means r.single (equality pair).pieces (comparison pair) := by
  rw [pieces_equality]
  exact r.equality pair.1 pair.2

theorem pieces_equalities (pair : Identifier × α) (rest : List (Identifier × α)) :
    (Phrase.seq " AND " ((pair :: rest).map equality)).pieces = (equality pair).pieces ++
      (rest.map fun p => (equality p).pieces).flatMap (Piece.ofKeyword " AND " ++ ·) := by
  have hfilter : ((pair :: rest).map equality).filter (fun item => !item.isEmpty) =
      (pair :: rest).map equality := by
    refine List.filter_eq_self.2 fun item hitem => ?_
    obtain ⟨p, _, rfl⟩ := List.mem_map.1 hitem
    rw [isEmpty_equality]
    rfl
  rw [Phrase.pieces_seq, hfilter, List.map_map]
  rfl

theorem says_equalities (r : Reading α) (pairs : List (Identifier × α)) :
    (equalities pairs).Says r r.single (formula (.equal pairs)) := by
  rw [formula]
  match pairs with
  | [] => rfl
  | [pair] => exact ⟨isEmpty_equality pair, equality_means r pair⟩
  | pair :: pair' :: rest =>
    refine ⟨rfl, ?_⟩
    change r.Means r.single
      (Phrase.seq " AND " ((pair :: pair' :: rest).map equality)).parens.pieces
      (((pair' :: rest).map comparison).foldl .and (comparison pair))
    have hall : List.Forall₂ (r.Means r.single) ((pair' :: rest).map fun p => (equality p).pieces)
        ((pair' :: rest).map comparison) := by
      rw [List.forall₂_map_left_iff, List.forall₂_map_right_iff, List.forall₂_same]
      exact fun p _ => equality_means r p
    rw [Phrase.pieces_parens, pieces_equalities]
    exact r.group (r.disjunction (Reading.joined (r.conjunction (equality_means r pair)) hall))

theorem pieces_membership (x : Identifier) {vs : List α} (hne : vs ≠ []) (negated : Bool) :
    (membership x vs negated).pieces =
      .name x :: .keyword (if negated then " NOT IN (" else " IN (") ::
        (Piece.listing vs ++ [.keyword ")"]) := by
  have hlist : (Phrase.listed (vs.map .value)).pieces = Piece.listing vs := by
    have hfilter : (vs.map (Phrase.value (α := α))).filter (fun item => !item.isEmpty) =
        vs.map .value := by
      refine List.filter_eq_self.2 fun item hitem => ?_
      obtain ⟨v, _, rfl⟩ := List.mem_map.1 hitem
      rfl
    rw [Phrase.listed, Phrase.pieces_seq, hfilter, List.map_map]
    rfl
  have hvs : vs.isEmpty = false := by simpa using hne
  rw [membership, hvs]
  cases negated <;> simp [Phrase.pieces_concat, Phrase.pieces, Piece.ofKeyword, hlist]

theorem says_membership (r : Reading α) (x : Identifier) (vs : List α) (negated : Bool) :
    (membership x vs negated).Says r r.single (formula (.among x vs negated)) := by
  rw [formula]
  cases vs with
  | nil =>
    refine ⟨?_, ?_⟩
    · cases negated <;> rfl
    · cases negated <;> exact r.const _
  | cons v vs =>
    have hne : v :: vs ≠ [] := by simp
    refine ⟨?_, ?_⟩
    · simp [membership, Phrase.concat, Phrase.isEmpty_seq, Phrase.isEmpty]
    · rw [pieces_membership x hne]
      exact r.membership x hne negated

theorem says_raw {p : Phrase α} (h : ∀ q ∈ p.pieces, q.IsWords) :
    p.Says .exact .operand (formula (.raw p)) := by
  rw [formula]
  cases he : p.isEmpty with
  | true => exact he
  | false =>
    have hne : p.pieces ≠ [] := fun e => by
      rw [(Phrase.pieces_eq_nil_iff p).1 e] at he
      cases he
    exact ⟨he, Piece.means_words h hne⟩

/-- The caller's words that have a property are read as single conditions. -/
def ReadBy (r : Reading α) (P : Condition α → Prop) : Prop :=
  ∀ p, P (.raw p) → p.Says r r.single (formula (.raw p))

theorem readBy_exact : ReadBy (α := α) .exact InWords := fun _ => says_raw

mutual

/-- Every condition is written as a single condition that says it. -/
theorem says_phrase {P : Condition α → Prop} (hraw : ReadBy r P) :
    ∀ c : Condition α, c.Every P → c.phrase.Says r r.single c.formula
  | .equal pairs, _ => says_equalities r pairs
  | .among x vs negated, _ => says_membership r x vs negated
  | .raw p, h => hraw p h
  | .all, _ => ⟨rfl, r.const true⟩
  | .group conditions, h => by
    have hbody := says_phraseOf (phrases_say hraw conditions h)
    rw [phrase, formula]
    cases hf : Formula.fold (formulas conditions) with
    | none =>
      rw [hf] at hbody
      have he : (Joined.phraseOf (phrases conditions)).isEmpty = true := hbody
      simp [Phrase.Says, grouped, he]
    | some f =>
      rw [hf] at hbody
      obtain ⟨he, hm⟩ := hbody
      refine ⟨by simp [grouped, he], ?_⟩
      rw [grouped, he]
      change r.Means r.single (Joined.phraseOf (phrases conditions)).parens.pieces f
      rw [Phrase.pieces_parens]
      exact r.group hm

theorem phrases_say {P : Condition α → Prop} (hraw : ReadBy r P) :
    ∀ cs : List (Junction × Condition α), EveryOf P cs →
    List.Forall₂ (SaysTied r) ((phrases cs).filter fun c => !c.2.isEmpty) (formulas cs)
  | [], _ => .nil
  | (junction, c) :: rest, h => by
    have hc := says_phrase hraw c h.1
    have hrest := phrases_say hraw rest h.2
    rw [phrases, formulas]
    cases hf : c.formula with
    | none =>
      rw [hf] at hc
      change c.phrase.isEmpty = true at hc
      simpa [hc] using hrest
    | some f =>
      rw [hf] at hc
      have hfirst : SaysTied r (junction, c.phrase) (junction, f) := ⟨rfl, hc.1, hc.2⟩
      simpa [hc.1] using List.Forall₂.cons hfirst hrest

end

end Condition

/-! ## Predicates -/

/-- The text of a phrase is read as this. -/
def Phrase.ReadsAs (p : Phrase α) (f : Formula α) : Prop :=
  Reads p.query.values .disjunction (Lexeme.ofSymbols (p.symbols 0)) f

/-- What is said is the only reading; a text that says nothing has none. -/
theorem Phrase.Says.readsAs_iff {p : Phrase α} {f : Option (Formula α)}
    (h : p.Says .exact .disjunction f) (g : Formula α) : p.ReadsAs g ↔ f = some g := by
  have hvalues : p.query.values = p.values := by rw [Phrase.query_eq]
  rw [Phrase.ReadsAs, hvalues]
  cases f with
  | none =>
    have hnil : p.symbols 0 = [] := by
      rw [Phrase.symbols, Phrase.spell, (Phrase.pieces_eq_nil_iff p).2 h, Piece.spell_nil]
    rw [hnil]
    constructor
    · intro hr
      have hread := formula?_of_reads hr
      cases hread
    · intro e
      cases e
  | some f =>
    have hf : Reads p.values .disjunction (Lexeme.ofSymbols (p.symbols 0)) f :=
      Piece.Means.reads h.2
    constructor
    · intro hr
      rw [hf.unique hr]
    · intro e
      cases e
      exact hf

/-- What says nothing has no text, and what says something has some. -/
theorem Phrase.Says.eq_none_iff {level : Precedence} {p : Phrase α} {f : Option (Formula α)}
    (h : p.Says r level f) : f = none ↔ p.isEmpty = true := by
  cases f with
  | none => exact iff_of_true rfl h
  | some f =>
    have he : p.isEmpty = false := h.1
    simp [he]

theorem Phrase.sql_eq_empty_iff (p : Phrase α) : p.query.sql = "" ↔ p.isEmpty = true := by
  rw [Phrase.query_eq, ← Phrase.chars_eq_nil_iff 0 p, ← String.toList_eq_nil_iff,
    String.toList_ofList]

namespace Predicate

variable {p : Predicate α}

/-- The text of a predicate says what its conditions say. -/
theorem says_phrase (h : Condition.EveryOf Condition.InWords p.conditions) :
    p.phrase.Says .exact .disjunction (Formula.fold (Condition.formulas p.conditions)) :=
  says_phraseOf (Condition.phrases_say Condition.readBy_exact p.conditions h)

theorem readsAs_iff (h : Condition.EveryOf Condition.InWords p.conditions) (f : Formula α) :
    p.phrase.ReadsAs f ↔ Formula.fold (Condition.formulas p.conditions) = some f :=
  (says_phrase h).readsAs_iff f

theorem isEmpty_iff (h : Condition.EveryOf Condition.InWords p.conditions) :
    p.isEmpty = true ↔ Condition.formulas p.conditions = [] :=
  (says_phrase h).eq_none_iff.symm.trans (Junction.fold_eq_none_iff _)

end Predicate

end ParamSql
