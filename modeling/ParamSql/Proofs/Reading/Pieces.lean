import Mathlib.Data.List.Forall2
import ParamSql.Proofs.Reading.Grammar

/-!
# What pieces say

Pieces say a formula if they are read as it wherever they stand: behind any values that are bound
before, and in front of any break. What pieces say together follows from what each of them says.

Results:
* `Means.and`, `Means.or`, `Means.group`: pieces with AND, with OR and in parentheses.
* `means_equality`, `means_membership`, `means_words`: the conditions of a predicate.
* `Means.reads`: pieces on their own are read as what they say.
* `Reading`: what a way of reading conditions has to do with the single ones, and with operators.
-/

namespace ParamSql

variable {α : Type}

namespace Piece

open Lexeme (Lexes LexesAlone StartsBreak isBreak)

/-- The pieces are a condition of this level that says `f`, whatever is bound before and after. -/
def Means (level : Precedence) (ps : List (Piece α)) (f : Formula α) : Prop :=
  ∀ before after : List α, ∃ lexemes, Lexes (spell symbols before.length ps) lexemes ∧
    Reads (before ++ values ps ++ after) level lexemes f

/-- The pieces are a condition of this level, whatever is bound before and after, and what they say
has a property. -/
def ReadsSuch (level : Precedence) (ps : List (Piece α)) (P : Formula α → Prop) : Prop :=
  ∀ before after : List α, ∃ lexemes f, Lexes (spell symbols before.length ps) lexemes ∧
    Reads (before ++ values ps ++ after) level lexemes f ∧ P f

theorem Means.such {level : Precedence} {ps : List (Piece α)} {f : Formula α}
    (h : Means level ps f) : ReadsSuch level ps (f = ·) := by
  intro before after
  obtain ⟨s, hs, hr⟩ := h before after
  exact ⟨s, f, hs, hr, rfl⟩

theorem Means.operand {ps : List (Piece α)} {f : Formula α} (h : Means .operand ps f) :
    Means .conjunction ps f := by
  intro before after
  obtain ⟨s, hs, hr⟩ := h before after
  exact ⟨s, hs, .operand hr⟩

theorem Means.conjunction {ps : List (Piece α)} {f : Formula α} (h : Means .conjunction ps f) :
    Means .disjunction ps f := by
  intro before after
  obtain ⟨s, hs, hr⟩ := h before after
  exact ⟨s, hs, .conjunction hr⟩

/-- Pieces on their own are read as what they say. -/
theorem Means.reads {ps : List (Piece α)} {f : Formula α} (h : Means .disjunction ps f) :
    Reads (values ps) .disjunction (Lexeme.ofSymbols (spell symbols 0 ps)) f := by
  obtain ⟨s, hs, hr⟩ := h [] []
  rw [List.nil_append, List.append_nil] at hr
  rw [List.length_nil] at hs
  rwa [Lexeme.ofSymbols_eq hs]

@[simp] theorem symbols_ofKeyword (n : Nat) (text : String) :
    spell symbols n (ofKeyword text : List (Piece α)) = text.toList.map .char := by
  unfold ofKeyword
  split
  · rename_i h
    rw [h]
    rfl
  · exact spell_singleton symbols n _

/-! ## Operators and groups -/

/-- Two texts are lexed with what is written between them. -/
theorem lexes_tied {ps qs : List (Piece α)} {n : Nat} {s t : List Lexeme}
    (hs : Lexes (spell symbols n ps) s) (ht : Lexes (spell symbols (n + (values ps).length) qs) t)
    {text : String} {u : List Lexeme} (hu : LexesAlone (text.toList.map .char) u)
    (hb : ∀ rest, StartsBreak (text.toList.map .char ++ rest)) :
    Lexes (spell symbols n (ps ++ (ofKeyword text ++ qs))) (s ++ (u ++ t)) := by
  rw [spell_append, spell_append, symbols_ofKeyword, values_ofKeyword]
  exact hs.append (hb _) (hu.append ht)

/-- Two conditions are read with what is written between them. -/
theorem ReadsSuch.tied {first second : Precedence} {ps qs : List (Piece α)}
    {P Q : Formula α → Prop} (hp : ReadsSuch first ps P) (hq : ReadsSuch second qs Q)
    {text : String} {u : List Lexeme} (hu : LexesAlone (text.toList.map .char) u)
    (hb : ∀ rest, StartsBreak (text.toList.map .char ++ rest)) (before after : List α) :
    ∃ s t f g, Lexes (spell symbols before.length (ps ++ (ofKeyword text ++ qs))) (s ++ (u ++ t)) ∧
      Reads (before ++ values (ps ++ (ofKeyword text ++ qs)) ++ after) first s f ∧
      Reads (before ++ values (ps ++ (ofKeyword text ++ qs)) ++ after) second t g ∧ P f ∧ Q g := by
  obtain ⟨s, f, hs, hsr, hf⟩ := hp before (values qs ++ after)
  obtain ⟨t, g, ht, htr, hg⟩ := hq (before ++ values ps) after
  rw [List.length_append] at ht
  refine ⟨s, t, f, g, lexes_tied hs ht hu hb, ?_, ?_, hf, hg⟩
  · simpa using hsr
  · simpa using htr

theorem Means.and {ps qs : List (Piece α)} {f g : Formula α} (hp : Means .conjunction ps f)
    (hq : Means .operand qs g) :
    Means .conjunction (ps ++ (ofKeyword " AND " ++ qs)) (.and f g) := by
  intro before after
  obtain ⟨s, t, _, _, hlex, hs, ht, rfl, rfl⟩ :=
    hp.such.tied hq.such Lexeme.lexes_and (fun _ => rfl) before after
  exact ⟨_, hlex, hs.and ht⟩

theorem Means.or {ps qs : List (Piece α)} {f g : Formula α} (hp : Means .disjunction ps f)
    (hq : Means .conjunction qs g) :
    Means .disjunction (ps ++ (ofKeyword " OR " ++ qs)) (.or f g) := by
  intro before after
  obtain ⟨s, t, _, _, hlex, hs, ht, rfl, rfl⟩ :=
    hp.such.tied hq.such Lexeme.lexes_or (fun _ => rfl) before after
  exact ⟨_, hlex, hs.or ht⟩

/-- Text that is closed by a parenthesis. -/
theorem lexes_closed {u : List Symbol} {s : List Lexeme} (h : Lexes u s) :
    Lexes (u ++ [.char ')']) (s ++ [.mark ')']) :=
  h.append rfl fun _ _ => rfl

/-- Text in parentheses. -/
theorem lexes_group {ps : List (Piece α)} {n : Nat} {s : List Lexeme}
    (hs : Lexes (spell symbols n ps) s) :
    Lexes (spell symbols n (.keyword "(" :: (ps ++ [.keyword ")"])))
      (.mark '(' :: (s ++ [.mark ')'])) := by
  have hopen : LexesAlone [.char '('] [.mark '('] := fun _ => rfl
  rw [spell, spell_append]
  exact hopen.append (lexes_closed hs)

theorem Means.group {ps : List (Piece α)} {f : Formula α} (h : Means .disjunction ps f) :
    Means .operand (.keyword "(" :: (ps ++ [.keyword ")"])) f := by
  intro before after
  obtain ⟨s, hs, hr⟩ := h before after
  refine ⟨_, lexes_group hs, .group ?_⟩
  simpa using hr

/-! ## Single conditions -/

theorem means_const (b : Bool) :
    Means .operand (ofKeyword (if b then "TRUE" else "FALSE") : List (Piece α)) (.const b) := by
  intro before after
  refine ⟨_, ?_, .const b⟩
  intro rest hr
  have hbreak (cs : List Char) : Lexeme.lex (.word cs false) rest =
      [.word cs] ++ Lexeme.lex .nothing rest := Lexeme.lex_break hr (by simp)
  rw [symbols_ofKeyword]
  cases b with
  | true => exact hbreak "TRUE".toList
  | false => exact hbreak "FALSE".toList

theorem boundTo_middle (before : List α) (v : α) (after : List α) :
    boundTo (before ++ v :: after) (before.length + 1) = some v := by
  simp [boundTo]

theorem means_equality (x : Identifier) (v : α) :
    Means .operand [.name x, .keyword " = ", .value v] (.test (.equal x.chars v)) := by
  intro before after
  refine ⟨[.word x.chars, .mark '=', .run [.value (before.length + 1)]], ?_, .equal ?_⟩
  · have hsym : spell symbols before.length [.name x, .keyword " = ", .value v] =
        x.chars.map .char ++ (" = ".toList.map .char ++ (value v).symbols before.length) := by
      simp [spell, symbols, chars, count]
    rw [hsym]
    exact (Lexeme.lexes_name x).append (show StartsBreak (.char ' ' :: _) from rfl)
      (Lexeme.lexes_equals.append (Lexeme.lexes_value before.length v))
  · simpa using boundTo_middle before v after

/-! ## Lists of values -/

/-- Values with commas. -/
def listing (vs : List α) : List (Piece α) := joined ", " (vs.map fun v => [.value v])

theorem listing_cons_cons (v w : α) (vs : List α) :
    listing (v :: w :: vs) = .value v :: .keyword ", " :: listing (w :: vs) := rfl

@[simp] theorem values_listing (vs : List α) : values (listing vs) = vs := by
  induction vs with
  | nil => rfl
  | cons v vs ih =>
    cases vs with
    | nil => rfl
    | cons w vs => rw [listing_cons_cons, values_value, values_keyword, ih]

theorem lexes_listing (n : Nat) {vs : List α} (hne : vs ≠ []) :
    Lexes (spell symbols n (listing vs)) (Lexeme.listed (List.range' (n + 1) vs.length)) := by
  induction vs generalizing n with
  | nil => exact absurd rfl hne
  | cons v vs ih =>
    cases vs with
    | nil =>
      have hsym : spell symbols n (listing [v]) = (value v).symbols n := by
        simp [listing, joined]
      rw [hsym]
      exact Lexeme.lexes_value n v
    | cons w vs =>
      have hcomma : LexesAlone (", ".toList.map .char) [.mark ','] := fun _ => rfl
      have hrest := hcomma.append (ih (n + 1) (by simp))
      have := (Lexeme.lexes_value n v).append (show StartsBreak (.char ',' :: _) from rfl) hrest
      exact this

theorem boundTo_range (before vs after : List α) :
    (List.range' (before.length + 1) vs.length).mapM (boundTo (before ++ vs ++ after)) =
      some vs := by
  induction vs generalizing before with
  | nil => rfl
  | cons v vs ih =>
    have hrest := ih (before ++ [v])
    simp only [List.length_append, List.length_singleton, List.append_assoc,
      List.singleton_append] at hrest
    rw [List.length_cons, List.range'_succ, List.append_assoc]
    exact mapM_cons_eq_some_iff.2 ⟨v, vs, boundTo_middle before v _, hrest, rfl⟩

theorem means_membership (x : Identifier) {vs : List α} (hne : vs ≠ []) (negated : Bool) :
    Means .operand (.name x :: .keyword (if negated then " NOT IN (" else " IN (") ::
      (listing vs ++ [.keyword ")"])) (.test (.among x.chars vs negated)) := by
  intro before after
  refine ⟨.word x.chars :: (Lexeme.membership negated ++ .mark '(' ::
    (Lexeme.listed (List.range' (before.length + 1) vs.length) ++ [.mark ')'])), ?_,
    .among negated (by simpa using hne) ?_⟩
  · have hsym : spell symbols before.length (.name x :: .keyword (if negated then " NOT IN ("
        else " IN (") :: (listing vs ++ [.keyword ")"])) =
        x.chars.map .char ++ ((if negated then " NOT IN (" else " IN (").toList.map .char ++
          (spell symbols before.length (listing vs) ++ [.char ')'])) := by
      simp [spell, spell_append, symbols, chars, count]
    have hlist := lexes_closed (lexes_listing before.length hne)
    rw [hsym]
    have hb : ∀ rest, StartsBreak (.char ' ' :: rest) := fun _ => rfl
    cases negated with
    | true => exact (Lexeme.lexes_name x).append (hb _) (Lexeme.lexes_notIn.append hlist)
    | false => exact (Lexeme.lexes_name x).append (hb _) (Lexeme.lexes_in.append hlist)
  · simpa using boundTo_range before vs after

/-! ## The caller's words -/

/-- The part that a piece is in the caller's words. -/
def part? : Piece α → Option (Part α)
  | .raw text => some (.text text)
  | .value v => some (.value v)
  | _ => none

theorem bind_numberedParts {ps : List (Piece α)} (h : ∀ p ∈ ps, p.IsWords)
    (before after : List α) :
    (spell numberedParts before.length ps).mapM (Part.bind (before ++ values ps ++ after)) =
      some (ps.filterMap part?) := by
  induction ps generalizing before with
  | nil => rfl
  | cons p ps ih =>
    have hps : ∀ q ∈ ps, q.IsWords := fun q hq => h q (by simp [hq])
    have hfirst : p.IsWords := h p (by simp)
    cases p with
    | keyword text => exact hfirst.elim
    | name x => exact hfirst.elim
    | raw text => exact mapM_cons_eq_some_iff.2 ⟨.text text, _, rfl, ih hps before, rfl⟩
    | value v =>
      have hrest := ih hps (before ++ [v])
      have hv : Part.bind (before ++ v :: (values ps ++ after)) (.value (before.length + 1)) =
          some (.value v) := by
        rw [Part.bind, boundTo_middle]
        rfl
      rw [List.length_append, List.append_assoc, List.append_assoc] at hrest
      rw [values_value, List.append_assoc]
      exact mapM_cons_eq_some_iff.2 ⟨.value v, _, hv, hrest, rfl⟩

theorem means_words {ps : List (Piece α)} (h : ∀ p ∈ ps, p.IsWords) (hne : ps ≠ []) :
    Means .operand ps (.test (.words (ps.filterMap part?))) := by
  intro before after
  exact ⟨_, Lexeme.lexes_words h hne before.length, .words (bind_numberedParts h before after)⟩

end Piece

/-! ## Ways of reading -/

/-- A way of reading pieces as conditions. The single conditions of a predicate are of the level
`single`; conditions with AND, with OR and in parentheses say together what each of them says. The
caller's words are left to the way of reading. -/
structure Reading (α : Type) where
  Means : Precedence → List (Piece α) → Formula α → Prop
  single : Precedence
  const : ∀ b : Bool, Means single (Piece.ofKeyword (if b then "TRUE" else "FALSE")) (.const b)
  equality : ∀ (x : Identifier) (v : α),
    Means single [.name x, .keyword " = ", .value v] (.test (.equal x.chars v))
  membership : ∀ (x : Identifier) {vs : List α}, vs ≠ [] → ∀ negated : Bool,
    Means single (.name x :: .keyword (if negated then " NOT IN (" else " IN (") ::
      (Piece.listing vs ++ [.keyword ")"])) (.test (.among x.chars vs negated))
  conjunction : ∀ {ps f}, Means single ps f → Means .conjunction ps f
  disjunction : ∀ {ps f}, Means .conjunction ps f → Means .disjunction ps f
  and : ∀ {ps qs f g}, Means .conjunction ps f → Means single qs g →
    Means .conjunction (ps ++ (Piece.ofKeyword " AND " ++ qs)) (.and f g)
  or : ∀ {ps qs f g}, Means .disjunction ps f → Means single qs g →
    Means .disjunction (ps ++ (Piece.ofKeyword " OR " ++ qs)) (.or f g)
  group : ∀ {ps f}, Means .disjunction ps f →
    Means single (.keyword "(" :: (ps ++ [.keyword ")"])) f

namespace Reading

open Piece (ofKeyword)

/-- Pieces are read as they are written; the caller's words are single conditions. -/
def exact : Reading α where
  Means := Piece.Means
  single := .operand
  const := Piece.means_const
  equality := Piece.means_equality
  membership := Piece.means_membership
  conjunction := Piece.Means.operand
  disjunction := Piece.Means.conjunction
  and := Piece.Means.and
  or hp hq := hp.or hq.operand
  group := Piece.Means.group

variable {r : Reading α}

/-- Conditions with AND between them are read from the left. -/
theorem joined {ps : List (Piece α)} {f : Formula α} (h : r.Means .conjunction ps f)
    {pss : List (List (Piece α))} {fs : List (Formula α)}
    (hs : List.Forall₂ (r.Means r.single) pss fs) :
    r.Means .conjunction (ps ++ pss.flatMap (ofKeyword " AND " ++ ·)) (fs.foldl .and f) := by
  induction hs generalizing ps f with
  | nil => simpa using h
  | cons hq _ ih =>
    have := ih (r.and h hq)
    simpa [List.append_assoc] using this

end Reading

end ParamSql
