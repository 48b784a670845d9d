import ParamSql.Proofs.Reading.Division
import ParamSql.Proofs.Values.Predicate

/-!
# The caller's texts among other conditions

A text of the caller's is written as it is, without parentheses, and so it is read together with
what stands around it. Where the texts of a predicate have no OR at their top, a condition that is
tied with AND says what it says on its own, and narrows what is said before it. A text with OR at
its top does not: only its first part is tied with AND, and its other parts stand beside everything
before it.

Results:
* `says_divided`: conditions say what they say, with the caller's texts looked into.
* `eval_apply`, `eval_applyAll`: calls that tie with AND narrow a predicate.
* `and_conjoins`: what is read behind AND where no text has OR at its top.
* `reading_add_raw`: what is read of any text behind AND.
* `raw_or_escapes`: a text with OR at its top lets rows through that the predicate does not.
-/

namespace ParamSql

variable {α T : Type}

open Condition (EveryOf InWords formulas)
open Piece (Conveys)

/-! ## Reading with the caller's texts looked into -/

namespace Phrase

variable (d : Division α) (p : Phrase α)

/-- The lexemes of a phrase whose texts are divided. -/
def lexemesBy : List Lexeme :=
  Lexeme.ofSymbols (Piece.spell Piece.symbols 0 (d.divide p.pieces))

/-- The text of a phrase, divided, is read as this. -/
def ReadsBy (f : Formula α) : Prop := Reads p.query.values .disjunction (p.lexemesBy d) f

/-- What the text of a phrase is read as, divided. -/
def reading : Option (Formula α) := formula? p.query.values (p.lexemesBy d)

/-- The text of a phrase has the one reading, and none if there is no text. -/
structure IsRead : Prop where
  reads : ∀ f, p.ReadsBy d f ↔ p.reading d = some f
  silent : p.reading d = none ↔ p.query.sql = ""

end Phrase

namespace Division

variable (d : Division α)

/-- The truth of tests where the caller's texts are looked into. -/
def truth [Lattice T] [BoundedOrder T] (truth : Test α → T) (t : Test α) : T :=
  (t.subst d.said).eval truth

end Division

namespace Phrase

variable {d : Division α} {p : Phrase α}

/-- Pieces that convey something are read as something with this truth, and as nothing else. -/
theorem reading_of_conveys {f : Formula α} (he : p.isEmpty = false)
    (h : Conveys .disjunction (d.divide p.pieces) f) :
    p.IsRead d ∧ ∃ g, p.reading d = some g ∧ g.Same f := by
  obtain ⟨g, hg, hsame⟩ := h.reads
  rw [d.values_divide] at hg
  have hreads : p.ReadsBy d g := by
    rw [ReadsBy, query_eq]
    exact hg
  have hreading : p.reading d = some g := formula?_of_reads hreads
  have hsql : p.query.sql ≠ "" := fun hempty => by
    rw [p.sql_eq_empty_iff.1 hempty] at he
    cases he
  refine ⟨⟨fun f' => ⟨formula?_of_reads, fun hf' => ?_⟩, ?_⟩, g, hreading, hsame⟩
  · rw [hreading] at hf'
    cases hf'
    exact hreads
  · simp [hreading, hsql]

/-- What is said is read, with the caller's texts looked into. -/
theorem Says.reading {f : Option (Formula α)} (h : p.Says d.reading .disjunction f) :
    p.IsRead d ∧ ∀ (T : Type) [Lattice T] [BoundedOrder T] (truth : Test α → T),
      (p.reading d).map (Formula.eval truth) = f.map (Formula.eval (d.truth truth)) := by
  cases f with
  | none =>
    have hpieces : p.pieces = [] := (pieces_eq_nil_iff p).2 h
    have hreading : p.reading d = none := by
      rw [Phrase.reading, lexemesBy, hpieces]
      rfl
    refine ⟨⟨fun f => ⟨formula?_of_reads, fun hf => ?_⟩, ?_⟩, fun T _ _ truth => ?_⟩
    · rw [hreading] at hf
      cases hf
    · exact iff_of_true hreading (p.sql_eq_empty_iff.2 h)
    · rw [hreading]
      rfl
  | some f =>
    obtain ⟨hread, g, hg, hsame⟩ := reading_of_conveys h.1 h.2
    refine ⟨hread, fun T _ _ truth => ?_⟩
    rw [hg, Option.map_some, hsame T truth, Formula.eval_subst]
    rfl

end Phrase

/-! ## Conditions -/

namespace Condition

/-- Text of the caller's has no OR at its top, as far as one looks into it. -/
def IsWhole (d : Division α) : Condition α → Prop
  | .raw p => p.isEmpty = false → ∃ f, Conveys .conjunction (d.divide p.pieces) f
  | _ => True

mutual

theorem every_and {P Q : Condition α → Prop} :
    ∀ c : Condition α, c.Every P → c.Every Q → c.Every fun c => P c ∧ Q c
  | .group conditions, hp, hq => everyOf_and conditions hp hq
  | .equal _, hp, hq => ⟨hp, hq⟩
  | .among _ _ _, hp, hq => ⟨hp, hq⟩
  | .raw _, hp, hq => ⟨hp, hq⟩
  | .all, hp, hq => ⟨hp, hq⟩

theorem everyOf_and {P Q : Condition α → Prop} : ∀ conditions : List (Junction × Condition α),
    EveryOf P conditions → EveryOf Q conditions → EveryOf (fun c => P c ∧ Q c) conditions
  | [], _, _ => trivial
  | c :: rest, hp, hq => ⟨every_and c.2 hp.1 hq.1, everyOf_and rest hp.2 hq.2⟩

end

theorem readBy_division (d : Division α) :
    ReadBy d.reading fun c => InWords c ∧ IsWhole d c := by
  rintro p ⟨hwords, hwhole⟩
  rw [formula]
  cases he : p.isEmpty with
  | true => exact he
  | false =>
    obtain ⟨f, hf⟩ := hwhole he
    exact ⟨he, d.conveys_said hwords hf⟩

end Condition

namespace Predicate

open Call (AddsAll AllValid)
open Condition (IsWhole)

/-- Conditions say what they say, with the caller's texts looked into. -/
theorem says_divided {p : Predicate α} {d : Division α} (hp : EveryOf InWords p.conditions)
    (hd : EveryOf (IsWhole d) p.conditions) : p.phrase.Says d.reading .disjunction p.formula :=
  says_phraseOf (Condition.phrases_say (Condition.readBy_division d) p.conditions
    (Condition.everyOf_and p.conditions hp hd))

/-! ## Calls that tie with AND -/

/-- The call ties what it adds with AND. -/
def Call.IsAnd : Call α → Prop
  | .equal junction _ _ => junction = .and
  | .oneOf junction _ _ => junction = .and
  | .raw junction _ => junction = .and
  | .group junction _ => junction = .and
  | _ => True

/-- What is made of what the caller gave is added behind all conditions, if it can be made. -/
theorem conditions_addResult (junction : Junction) (result : Except BuildFault (Condition α)) :
    ∃ added, (∀ c ∈ added, c.1 = junction) ∧
      ∀ p : Predicate α, (p.addResult junction result).conditions = p.conditions ++ added := by
  cases result with
  | ok c => exact ⟨[(junction, c)], by simp, fun _ => rfl⟩
  | error fault => exact ⟨[], by simp, fun p => (List.append_nil p.conditions).symm⟩

/-- A call that ties with AND and merges no other predicate adds the same conditions behind all
others. -/
theorem conditions_single {call : Call α} (hand : call.IsAnd)
    (hsingle : ∀ calls, call ≠ .merge calls) :
    ∃ added, (∀ c ∈ added, c.1 = .and) ∧
      ∀ p : Predicate α, (p.apply call).conditions = p.conditions ++ added := by
  cases call with
  | equal junction column v =>
    cases hand
    exact conditions_addResult .and _
  | equalAll columns => exact conditions_addResult .and _
  | oneOf junction column vs =>
    cases hand
    exact conditions_addResult .and _
  | noneOf column vs => exact conditions_addResult .and _
  | raw junction sql =>
    cases hand
    exact conditions_addResult .and (.ok _)
  | template sql vs => exact conditions_addResult .and _
  | all => exact conditions_addResult .and (.ok _)
  | group junction calls =>
    cases hand
    exact conditions_addResult .and (.ok _)
  | merge calls => exact absurd rfl (hsingle calls)

/-- The conditions behind a call that ties with AND: those before it, and further ones. They are
tied with AND and say what the call says, or nothing is said before them. -/
theorem conditions_apply {call : Call α} (hand : call.IsAnd) {p : Predicate α}
    (hp : EveryOf InWords p.conditions) :
    ∃ added, (p.apply call).conditions = p.conditions ++ added ∧
      Formula.fold (formulas added) = (ofCalls [call]).formula ∧
      (formulas p.conditions = [] ∨ ∀ d ∈ formulas added, d.1 = .and) := by
  by_cases hmerge : ∃ calls, call = .merge calls
  · obtain ⟨calls, rfl⟩ := hmerge
    obtain ⟨added, hadded, -, -, hfold, hcase⟩ := conditions_merge hp (ofCalls_inWords calls)
    have hcall : (ofCalls [.merge calls]).conditions = (ofCalls calls).conditions := rfl
    refine ⟨added, hadded, ?_, hcase.imp And.left id⟩
    rw [hfold, formula, formula, hcall]
  · obtain ⟨added, htied, hadded⟩ :=
      conditions_single hand fun calls h => hmerge ⟨calls, h⟩
    have hcall : (ofCalls [call]).conditions = added := hadded ∅
    refine ⟨added, hadded p, ?_, .inr (Condition.junction_of_mem_formulas htied)⟩
    rw [formula, hcall]

/-- A call that ties with AND narrows a predicate. -/
theorem eval_apply [Lattice T] [BoundedOrder T] (truth : Test α → T) {call : Call α}
    (hand : call.IsAnd) {p : Predicate α} (hp : EveryOf InWords p.conditions) :
    (p.apply call).formula.map (Formula.eval truth) =
      (p.formula.map (Formula.eval truth)).merge (· ⊓ ·)
        ((ofCalls [call]).formula.map (Formula.eval truth)) := by
  obtain ⟨added, hadded, hfold, hcase⟩ := conditions_apply hand hp
  rw [formula, hadded, ← hfold]
  exact Condition.eval_append truth hcase

/-- Calls that tie with AND narrow a predicate, one after the other. -/
theorem eval_applyAll [Lattice T] [BoundedOrder T] (truth : Test α → T) {more : List (Call α)}
    (hand : ∀ call ∈ more, call.IsAnd) {p : Predicate α} (hp : EveryOf InWords p.conditions) :
    (p.applyAll more).formula.map (Formula.eval truth) =
      (more.map fun call => (ofCalls [call]).formula.map (Formula.eval truth)).foldl
        (Option.merge (· ⊓ ·)) (p.formula.map (Formula.eval truth)) := by
  induction more generalizing p with
  | nil => rfl
  | cons call rest ih =>
    obtain ⟨hcall, hrest⟩ := List.forall_mem_cons.1 hand
    have hnext := everyOf_apply call hp (adds_inWords call)
    rw [applyAll_cons, ih hrest hnext, eval_apply truth hcall hp, List.map_cons, List.foldl_cons]

/-! ## Conditions behind AND -/

theorem ofCalls_append (first second : List (Call α)) :
    ofCalls (first ++ second) = (ofCalls first).applyAll second := applyAll_append ∅ first second

theorem allValid_append {calls more : List (Call α)} (h : AllValid calls)
    (hmore : ∀ call ∈ more, call.IsValid) : AllValid (calls ++ more) := by
  rw [Call.allValid_iff, List.forall_mem_append]
  exact ⟨(Call.allValid_iff calls).1 h, hmore⟩

theorem values_of_valid {calls : List (Call α)} (h : AllValid calls) :
    (ofCalls calls).phrase.values = calls.flatMap Call.given := by
  have hcompile := (compile_eq_ok_iff (ofCalls calls) _).2 ⟨(fault_ofCalls calls).2 h, rfl⟩
  rw [values_ofCalls hcompile, Call.allGiven_eq]

/-- Calls bind together what each of them binds on its own. -/
theorem values_ofCalls_append {calls more : List (Call α)} (hcalls : AllValid calls)
    (hmore : ∀ call ∈ more, call.IsValid) :
    (ofCalls (calls ++ more)).phrase.values =
      (ofCalls calls).phrase.values ++ more.flatMap fun call => (ofCalls [call]).phrase.values := by
  rw [values_of_valid (allValid_append hcalls hmore), values_of_valid hcalls, List.flatMap_append]
  congr 1
  refine List.flatMap_congr fun call hcall => ?_
  have hone : AllValid [call] := ⟨hmore call hcall, trivial⟩
  rw [values_of_valid hone, List.flatMap_singleton]

theorem isWhole_ofCalls {d : Division α} {calls : List (Call α)}
    (h : AddsAll (IsWhole d) calls) : EveryOf (IsWhole d) (ofCalls calls).conditions :=
  everyOf_applyAll calls trivial h

end Predicate

/-- What is true where all of several are is below each of them. -/
theorem le_of_foldl_merge [SemilatticeInf T] {before : Option T} {truths : List (Option T)}
    {x y : T} (hx : some x ∈ before :: truths)
    (hy : truths.foldl (Option.merge (· ⊓ ·)) before = some y) : y ≤ x := by
  induction truths generalizing before x with
  | nil =>
    obtain rfl : some x = before := by simpa using hx
    exact (Option.some.inj hy).ge
  | cons truth rest ih =>
    rw [List.foldl_cons] at hy
    rcases List.mem_cons.1 hx with rfl | hx
    · cases truth with
      | none => exact ih (by simp) hy
      | some z => exact (ih (x := x ⊓ z) (by simp) hy).trans inf_le_left
    · rcases List.mem_cons.1 hx with rfl | hx
      · cases before with
        | none => exact ih (by simp) hy
        | some z => exact (ih (x := z ⊓ x) (by simp) hy).trans inf_le_right
      · exact ih (List.mem_cons_of_mem _ hx) hy

/-- The merged phrase is the conjunction of the others, read with the caller's texts looked into:
it is true where those with text all are, and so it matches no row that one of them does not. -/
structure Phrase.ConjoinsBy (d : Division α) (phrases : List (Phrase α)) (merged : Phrase α) :
    Prop where
  text : (Piece.spell Piece.symbols 0 (d.divide merged.pieces)).flatMap Symbol.chars =
    merged.query.sql.toList
  values : merged.query.values = phrases.flatMap fun p => p.query.values
  isRead : ∀ p ∈ merged :: phrases, p.IsRead d
  eval : ∀ (T : Type) [Lattice T] [BoundedOrder T] (truth : Test α → T),
    (merged.reading d).map (Formula.eval truth) =
      (phrases.map fun p => (p.reading d).map (Formula.eval truth)).foldl
        (Option.merge (· ⊓ ·)) none
  narrows : ∀ p ∈ phrases, ∀ f g, p.reading d = some f → merged.reading d = some g →
    ∀ (T : Type) [Lattice T] [BoundedOrder T] (truth : Test α → T), g.eval truth ≤ f.eval truth

namespace Predicate

open Call (AddsAll AllValid)
open Condition (IsWhole)

/-- Calls that tie with AND, behind others: every one is read as it is on its own. -/
theorem conjoinsBy_append {d : Division α} {calls more : List (Call α)}
    (hwhole : AddsAll (IsWhole d) (calls ++ more)) (hand : ∀ call ∈ more, call.IsAnd)
    (hcalls : AllValid calls) (hvalid : ∀ call ∈ more, call.IsValid) :
    Phrase.ConjoinsBy d
      ((ofCalls calls).phrase :: more.map fun call => (ofCalls [call]).phrase)
      (ofCalls (calls ++ more)).phrase := by
  have hread (list : List (Call α)) (h : AddsAll (IsWhole d) list) :=
    (says_divided (ofCalls_inWords list) (isWhole_ofCalls h)).reading
  obtain ⟨hbefore, hmore⟩ := List.forall_mem_append.1 ((Call.addsAll_iff _).1 hwhole)
  have hfirst := hread calls ((Call.addsAll_iff calls).2 hbefore)
  have hone (call : Call α) (hcall : call ∈ more) := hread [call] ⟨hmore call hcall, trivial⟩
  have hp := ofCalls_inWords calls
  have heval (T : Type) [Lattice T] [BoundedOrder T] (truth : Test α → T) :
      ((ofCalls (calls ++ more)).phrase.reading d).map (Formula.eval truth) =
        (((ofCalls calls).phrase :: more.map fun call => (ofCalls [call]).phrase).map
          fun p => (p.reading d).map (Formula.eval truth)).foldl (Option.merge (· ⊓ ·)) none := by
    rw [(hread _ hwhole).2 T truth, ofCalls_append, eval_applyAll _ hand hp, List.map_cons,
      List.map_map, List.foldl_cons, Option.merge_none_left, hfirst.2 T truth]
    congr 1
    exact List.map_congr_left fun call hcall => ((hone call hcall).2 T truth).symm
  refine ⟨d.text_divide _, ?_, ?_, heval, ?_⟩
  · simp only [Phrase.query_eq, List.flatMap_cons, List.flatMap_map]
    exact values_ofCalls_append hcalls hvalid
  · simp only [List.forall_mem_cons, List.forall_mem_map]
    exact ⟨(hread _ hwhole).1, hfirst.1, fun call hcall => (hone call hcall).1⟩
  · intro p hp f g hf hg T _ _ truth
    have hfold := heval T truth
    rw [hg, Option.map_some] at hfold
    refine le_of_foldl_merge (List.mem_cons_of_mem _ ?_) hfold.symm
    exact List.mem_map.2 ⟨p, hp, by rw [hf, Option.map_some]⟩

/-- Where no text of the caller's has OR at its top, calls that tie with AND say with what is said
before them what each of them says on its own, and let no row through that those before them do
not. -/
theorem and_conjoins (d : Division α) {calls more : List (Call α)}
    (hwhole : AddsAll (IsWhole d) (calls ++ more)) (hand : ∀ call ∈ more, call.IsAnd)
    {first : Phrase α} (hp : (ofCalls calls).compile = .ok first) {phrases : List (Phrase α)}
    (hmore : List.Forall₂ (fun call phrase => (ofCalls [call]).compile = .ok phrase)
      more phrases) :
    ∃ merged, (ofCalls (calls ++ more)).compile = .ok merged ∧
      Phrase.ConjoinsBy d (first :: phrases) merged := by
  obtain ⟨hfault, rfl⟩ := (compile_eq_ok_iff _ _).1 hp
  have hcompiled : phrases = (more.map fun call => (ofCalls [call]).phrase) ∧
      ∀ call ∈ more, call.IsValid := by
    clear hwhole hand
    induction hmore with
    | nil => simp
    | cons hc _ ih =>
      obtain ⟨hfault, rfl⟩ := (compile_eq_ok_iff _ _).1 hc
      rw [List.map_cons, List.forall_mem_cons, ← ih.1]
      exact ⟨rfl, ((fault_ofCalls _).1 hfault).1, ih.2⟩
  obtain ⟨rfl, hvalid⟩ := hcompiled
  have hcalls := (fault_ofCalls calls).1 hfault
  have hfree := (fault_ofCalls (calls ++ more)).2 (allValid_append hcalls hvalid)
  exact ⟨_, (compile_eq_ok_iff _ _).2 ⟨hfree, rfl⟩, conjoinsBy_append hwhole hand hcalls hvalid⟩

/-- Calls whose texts have AND at their top, or OR in parentheses. -/
def narrowingCalls : List (Call Nat) :=
  [.raw .and "x = 1 AND (y = 2 OR z = 3)", .template "c > ?" [4], .merge [.raw .or "d = 5"]]

theorem and_conjoins_narrowingCalls :
    ∃ merged,
      (ofCalls ([.equal .and (.text "a") 1] ++ narrowingCalls)).compile = .ok merged ∧
        Phrase.ConjoinsBy .connectives
          ((ofCalls [.equal .and (.text "a") 1]).phrase ::
            narrowingCalls.map fun call => (ofCalls [call]).phrase) merged := by
  have hraw (text : String) : Conveys .conjunction ([.raw text] : List (Piece Nat))
      (.test (.words [.text text])) :=
    have hwords : ∀ q ∈ ([.raw text] : List (Piece Nat)), q.IsWords := by simp [Piece.IsWords]
    (Piece.means_words hwords (by simp)).conveys.operand
  have hfilled : Conveys .conjunction ([.raw "c > ", .value 4] : List (Piece Nat))
      (.test (.words [.text "c > ", .value 4])) :=
    have hwords : ∀ q ∈ ([.raw "c > ", .value 4] : List (Piece Nat)), q.IsWords := by
      simp [Piece.IsWords]
    (Piece.means_words hwords (by simp)).conveys.operand
  have hboth := (hraw "x = 1").and (hraw "(y = 2 OR z = 3)")
  have htemplate : Call.Adds (IsWhole .connectives) (.template "c > ?" [4]) := by
    intro phrase h
    cases h
    exact fun _ => ⟨_, hfilled⟩
  have hwhole : AddsAll (IsWhole .connectives)
      ([.equal .and (.text "a") 1] ++ narrowingCalls) :=
    ⟨fun _ _ => trivial, fun _ => ⟨_, hboth⟩, htemplate, ⟨fun _ => ⟨_, hraw "d = 5"⟩, trivial⟩,
      trivial⟩
  have hand : ∀ call ∈ narrowingCalls, call.IsAnd := by
    simp [narrowingCalls, Call.IsAnd]
  exact and_conjoins .connectives hwhole hand rfl (.cons rfl (.cons rfl (.cons rfl .nil)))

/-! ## A text with OR at its top -/

/-- A condition behind AND stands behind a conjunction that says all of what is said before it. -/
theorem pieces_add {r : Reading α} {P : Condition α → Prop} (hraw : Condition.ReadBy r P)
    {p : Predicate α} (h : EveryOf P p.conditions) {f : Formula α} (hf : p.formula = some f)
    {c : Condition α} (hc : c.phrase.isEmpty = false) :
    ∃ front, r.Means .conjunction front f ∧
      (p.add .and c).phrase.pieces = front ++ (Piece.ofKeyword " AND " ++ c.phrase.pieces) := by
  have hj : JoinedMeans r
      (((Condition.phrases p.conditions).filter fun c => !c.2.isEmpty).foldl Joined.add none)
      p.formula :=
    joinedMeans_foldl (Condition.phrases_say hraw p.conditions h) (j := none) (f := none) trivial
  rw [hf] at hj
  have hphrase : (p.add .and c).phrase = Joined.phraseOf
      (Condition.phrases p.conditions ++ [(.and, c.phrase)]) := by
    rw [phrase, add, Condition.phrases_append]
    rfl
  cases hs : ((Condition.phrases p.conditions).filter fun c => !c.2.isEmpty).foldl Joined.add
      none with
  | none =>
    rw [hs] at hj
    exact hj.elim
  | some j =>
    rw [hs] at hj
    obtain ⟨he, hoperand⟩ := means_operand hj.1 hj.2
    refine ⟨j.operand.pieces, hoperand, ?_⟩
    have hlast : [(Junction.and, c.phrase)].filter (fun c => !c.2.isEmpty) =
        [(.and, c.phrase)] := by simp [hc]
    rw [hphrase, Joined.phraseOf, List.filter_append, List.foldl_append, hs, hlast]
    exact pieces_pair " AND " he hc

/-- A text of the caller's behind AND, whatever is at its top. Only its first part is tied with AND;
rows that the predicate does not match are let through by the other parts. -/
theorem reading_add_raw (d : Division α) {p : Predicate α} (hp : EveryOf InWords p.conditions)
    (hwhole : EveryOf (IsWhole d) p.conditions) (he : p.isEmpty = false) {words : Phrase α}
    (hwords : words.isEmpty = false) {g : Formula α}
    (hg : Conveys .disjunction (d.divide words.pieces) g) :
    ∃ f h first rest : Formula α, p.phrase.reading d = some f ∧
      (p.add .and (.raw words)).phrase.ReadsBy d h ∧ g.Same (first.or rest) ∧
      h.Same ((f.and first).or rest) := by
  have hsays := says_divided hp hwhole
  have hsome : p.formula ≠ none := fun hnone => by
    have hempty : p.isEmpty = true := hsays.eq_none_iff.1 hnone
    rw [hempty] at he
    cases he
  obtain ⟨f, hf⟩ := Option.ne_none_iff_exists'.1 hsome
  rw [hf] at hsays
  obtain ⟨-, f', hf', hsame⟩ := Phrase.reading_of_conveys he hsays.2
  obtain ⟨front, hfront, hpieces⟩ := pieces_add (Condition.readBy_division d)
    (Condition.everyOf_and p.conditions hp hwhole) hf (c := .raw words) hwords
  obtain ⟨h, first, rest, hread, hfirst, hh⟩ := Conveys.graft_or hfront hg
  have hdivide : d.divide (p.add .and (.raw words)).phrase.pieces =
      d.divide front ++ (Piece.ofKeyword " AND " ++ d.divide words.pieces) := by
    rw [hpieces, d.divide_append, d.divide_append, d.divide_ofKeyword]
    rfl
  refine ⟨f', h, first, rest, hf', ?_, hfirst, hh.trans ?_⟩
  · rw [Phrase.ReadsBy, Phrase.lexemesBy, Phrase.query_eq, Phrase.values, ← d.values_divide,
      hdivide]
    exact hread
  · exact (hsame.symm.and (.refl first)).or (.refl rest)

/-- Behind AND, a text with OR at its top is not read as it is on its own, a merged predicate
neither: a row is let through that the predicate in front of it does not match. -/
theorem raw_or_escapes :
    ¬ ∀ (calls : List (Call Nat)) (call : Call Nat), call.IsAnd → ∀ f g h : Formula Nat,
      (ofCalls calls).phrase.ReadsBy .connectives f →
      (ofCalls [call]).phrase.ReadsBy .connectives g →
      (ofCalls (calls ++ [call])).phrase.ReadsBy .connectives h →
      ∀ (T : Type) [Lattice T] [BoundedOrder T] (truth : Test Nat → T),
        h.eval truth = f.eval truth ⊓ g.eval truth := by
  intro hall
  let _ : Lattice Bool := Bool.instDistribLattice.toLattice
  have hequal : Reads [1] .conjunction [.word ['a'], .mark '=', .run [.value 1]]
      (.test (.equal ['a'] 1)) := .operand (.equal rfl)
  have hwords (values : List Nat) (text : String) :
      Reads values .operand [.run [.text text]] (.test (.words [.text text])) := .words rfl
  have hleft := (hwords [] "x = 1").operand
  have hright (values : List Nat) := (hwords values "y = 2").operand
  have hboth := hequal.and (hwords [1] "x = 1")
  have heval := hall [.equal .and (.text "a") 1] (.merge [.raw .and "x = 1 OR y = 2"]) trivial
    _ _ _ hequal.conjunction (hleft.conjunction.or (hright []))
    (hboth.conjunction.or (hright [1])) Bool fun t => decide (t = .words [.text "y = 2"])
  revert heval
  decide

example : (ofCalls [.equal .and (.text "a") 1,
    .merge [.raw .and "x = 1 OR y = 2"]]).phrase.query.sql = "a = $1 AND x = 1 OR y = 2" := by
  decide

end Predicate

end ParamSql
