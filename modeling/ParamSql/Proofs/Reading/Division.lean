import ParamSql.Proofs.Reading.Pieces

/-!
# Looking into texts of the caller's

A `Division` says how far one looks into a text of the caller's: it is divided into pieces with the
same characters, and what is a text of the caller's among these is looked into no further. A text
that has AND at its top is read together with the AND in front of it, from the left; what is read is
another formula then, with the same truth. So pieces `Convey` a formula if they are read as one with
its truth, wherever they stand. A text with OR at its top does not stand as a whole behind AND: only
its first part does.

Results:
* `Reads.graft`, `Reads.graft_or`: a condition behind AND that has AND, or OR, at its top.
* `Conveys.and`, `Conveys.or`, `Conveys.group`: what pieces convey together.
* `Division.text_divide`: dividing does not change the text.
* `Division.reading`: the way of reading that looks into the caller's texts.
* `Division.connectives`: the division at AND and OR outside of quotes and parentheses.
-/

namespace ParamSql

variable {α : Type}

/-! ## The truth of formulas -/

namespace Formula

/-- The formulas have the same truth, whatever truths the tests have. -/
def Same (f g : Formula α) : Prop :=
  ∀ (T : Type) [Lattice T] [BoundedOrder T] (truth : Test α → T), f.eval truth = g.eval truth

theorem Same.refl (f : Formula α) : f.Same f := fun _ _ _ _ => rfl

theorem Same.symm {f g : Formula α} (h : f.Same g) : g.Same f :=
  fun T _ _ truth => (h T truth).symm

theorem Same.trans {f g h : Formula α} (hfg : f.Same g) (hgh : g.Same h) : f.Same h :=
  fun T _ _ truth => (hfg T truth).trans (hgh T truth)

theorem Same.and {f f' g g' : Formula α} (hf : f.Same f') (hg : g.Same g') :
    (f.and g).Same (f'.and g') :=
  fun T _ _ truth => congrArg₂ (· ⊓ ·) (hf T truth) (hg T truth)

theorem Same.or {f f' g g' : Formula α} (hf : f.Same f') (hg : g.Same g') :
    (f.or g).Same (f'.or g') :=
  fun T _ _ truth => congrArg₂ (· ⊔ ·) (hf T truth) (hg T truth)

theorem same_and_assoc (f g h : Formula α) : ((f.and g).and h).Same (f.and (g.and h)) :=
  fun _ _ _ _ => inf_assoc ..

theorem same_or_assoc (f g h : Formula α) : ((f.or g).or h).Same (f.or (g.or h)) :=
  fun _ _ _ _ => sup_assoc ..

theorem same_or_false (f : Formula α) : (f.or (.const false)).Same f :=
  fun _ _ _ _ => sup_bot_eq _

end Formula

/-! ## Formulas in the place of the caller's words -/

/-- What a test says, if words of the caller's say this. -/
def Test.subst (said : List (Part α) → Formula α) : Test α → Formula α
  | .words parts => said parts
  | t => .test t

/-- What a formula says, if words of the caller's say this. -/
def Formula.subst (said : List (Part α) → Formula α) : Formula α → Formula α
  | .const b => .const b
  | .test t => t.subst said
  | .and f g => .and (f.subst said) (g.subst said)
  | .or f g => .or (f.subst said) (g.subst said)

/-- The truth is that of the formula itself, with the truths that the caller's words have then. -/
theorem Formula.eval_subst {T : Type} [Lattice T] [BoundedOrder T] (truth : Test α → T)
    (said : List (Part α) → Formula α) (f : Formula α) :
    (f.subst said).eval truth = f.eval fun t => (t.subst said).eval truth := by
  induction f with
  | const b => rfl
  | test t => rfl
  | and f g ihf ihg => rw [subst, eval, eval, ihf, ihg]
  | or f g ihf ihg => rw [subst, eval, eval, ihf, ihg]

open Lexeme (operator)

/-! ## A condition behind AND -/

section

variable {values : List α} {s t : List Lexeme} {f g : Formula α}

/-- A condition with AND at its top, behind AND: its operands are taken one by one. -/
theorem Reads.graft (hs : Reads values .conjunction s f) (ht : Reads values .conjunction t g) :
    ∃ h, Reads values .conjunction (s ++ operator .and :: t) h ∧ h.Same (f.and g) := by
  generalize hlevel : Precedence.conjunction = level at ht
  induction ht with
  | operand ht => exact ⟨_, hs.and ht, .refl _⟩
  | @and t t' g g' _ ht' ih =>
    obtain ⟨h, hread, hsame⟩ := ih rfl
    refine ⟨_, ?_, (hsame.and (.refl g')).trans (Formula.same_and_assoc f g g')⟩
    have hboth := hread.and ht'
    rwa [List.append_assoc, List.cons_append] at hboth
  | _ => cases hlevel

/-- A condition with OR at its top, behind AND: only the part in front of the first OR stands behind
AND, and the rest stands beside it. -/
theorem Reads.graft_or (hs : Reads values .conjunction s f) (ht : Reads values .disjunction t g) :
    ∃ h first rest, Reads values .disjunction (s ++ operator .and :: t) h ∧
      g.Same (first.or rest) ∧ h.Same ((f.and first).or rest) := by
  generalize hlevel : Precedence.disjunction = level at ht
  induction ht with
  | conjunction ht =>
    obtain ⟨h, hread, hsame⟩ := hs.graft ht
    exact ⟨h, _, .const false, hread.conjunction, (Formula.same_or_false _).symm,
      hsame.trans (Formula.same_or_false _).symm⟩
  | @or t t' g g' _ ht' ih =>
    obtain ⟨h, first, rest, hread, hg, hh⟩ := ih rfl
    refine ⟨h.or g', first, rest.or g', ?_, ?_, ?_⟩
    · have hboth := hread.or ht'
      rwa [List.append_assoc, List.cons_append] at hboth
    · exact (hg.or (.refl g')).trans (Formula.same_or_assoc first rest g')
    · exact (hh.or (.refl g')).trans (Formula.same_or_assoc _ rest g')
  | _ => cases hlevel

end

namespace Piece

/-- The pieces are a condition of this level with the truth of `f`, wherever they stand. -/
def Conveys (level : Precedence) (ps : List (Piece α)) (f : Formula α) : Prop :=
  ReadsSuch level ps fun g => g.Same f

/-- A part of a condition in the caller's words as a piece. -/
def ofPart : Part α → Piece α
  | .text text => .raw text
  | .value v => .value v

theorem map_ofPart {ps : List (Piece α)} (h : ∀ p ∈ ps, p.IsWords) :
    (ps.filterMap part?).map ofPart = ps := by
  induction ps with
  | nil => rfl
  | cons p ps ih =>
    obtain ⟨hp, hps⟩ := List.forall_mem_cons.1 h
    cases p with
    | keyword text => exact hp.elim
    | name x => exact hp.elim
    | raw text => exact congrArg (.raw text :: ·) (ih hps)
    | value v => exact congrArg (.value v :: ·) (ih hps)

theorem Conveys.same {level : Precedence} {ps : List (Piece α)} {f g : Formula α}
    (h : Conveys level ps f) (hfg : f.Same g) : Conveys level ps g := by
  intro before after
  obtain ⟨s, f', hs, hr, hf⟩ := h before after
  exact ⟨s, f', hs, hr, hf.trans hfg⟩

theorem Means.conveys {level : Precedence} {ps : List (Piece α)} {f : Formula α}
    (h : Means level ps f) : Conveys level ps f := by
  intro before after
  obtain ⟨s, hs, hr⟩ := h before after
  exact ⟨s, f, hs, hr, .refl f⟩

section

variable {ps qs : List (Piece α)} {f g : Formula α}

theorem Conveys.operand (h : Conveys .operand ps f) : Conveys .conjunction ps f := by
  intro before after
  obtain ⟨s, g, hs, hr, hsame⟩ := h before after
  exact ⟨s, g, hs, .operand hr, hsame⟩

theorem Conveys.conjunction (h : Conveys .conjunction ps f) : Conveys .disjunction ps f := by
  intro before after
  obtain ⟨s, g, hs, hr, hsame⟩ := h before after
  exact ⟨s, g, hs, .conjunction hr, hsame⟩

/-- Pieces on their own are read as a formula with the truth that they convey. -/
theorem Conveys.reads (h : Conveys .disjunction ps f) :
    ∃ g, Reads (values ps) .disjunction (Lexeme.ofSymbols (spell symbols 0 ps)) g ∧ g.Same f := by
  obtain ⟨s, g, hs, hr, hsame⟩ := h [] []
  rw [List.nil_append, List.append_nil] at hr
  rw [List.length_nil] at hs
  rw [Lexeme.ofSymbols_eq hs]
  exact ⟨g, hr, hsame⟩

/-- Behind AND may stand whatever has no OR at its top. -/
theorem Conveys.and (hp : Conveys .conjunction ps f) (hq : Conveys .conjunction qs g) :
    Conveys .conjunction (ps ++ (ofKeyword " AND " ++ qs)) (f.and g) := by
  intro before after
  obtain ⟨s, t, f', g', hlex, hs, ht, hf, hg⟩ :=
    ReadsSuch.tied hp hq Lexeme.lexes_and (fun _ => rfl) before after
  obtain ⟨h, hread, hsame⟩ := hs.graft ht
  exact ⟨_, h, hlex, hread, hsame.trans (hf.and hg)⟩

/-- Behind AND stands only the first part of what has OR at its top. -/
theorem Conveys.graft_or (hp : Conveys .conjunction ps f) (hq : Conveys .disjunction qs g) :
    ∃ h first rest, Reads (values (ps ++ (ofKeyword " AND " ++ qs))) .disjunction
        (Lexeme.ofSymbols (spell symbols 0 (ps ++ (ofKeyword " AND " ++ qs)))) h ∧
      g.Same (first.or rest) ∧ h.Same ((f.and first).or rest) := by
  obtain ⟨s, t, f', g', hlex, hs, ht, hf, hg⟩ :=
    ReadsSuch.tied hp hq Lexeme.lexes_and (fun _ => rfl) [] []
  rw [List.nil_append, List.append_nil] at hs ht
  rw [List.length_nil] at hlex
  obtain ⟨h, first, rest, hread, hfirst, hh⟩ := hs.graft_or ht
  rw [Lexeme.ofSymbols_eq hlex]
  have hsame := (hf.and (.refl first)).or (.refl rest)
  exact ⟨h, first, rest, hread, hg.symm.trans hfirst, hh.trans hsame⟩

theorem Conveys.or (hp : Conveys .disjunction ps f) (hq : Conveys .conjunction qs g) :
    Conveys .disjunction (ps ++ (ofKeyword " OR " ++ qs)) (f.or g) := by
  intro before after
  obtain ⟨s, t, f', g', hlex, hs, ht, hf, hg⟩ :=
    ReadsSuch.tied hp hq Lexeme.lexes_or (fun _ => rfl) before after
  exact ⟨_, _, hlex, hs.or ht, hf.or hg⟩

theorem Conveys.group (h : Conveys .disjunction ps f) :
    Conveys .operand (.keyword "(" :: (ps ++ [.keyword ")"])) f := by
  intro before after
  obtain ⟨s, g, hs, hr, hsame⟩ := h before after
  refine ⟨_, g, lexes_group hs, .group ?_, hsame⟩
  simpa using hr

end

end Piece

open Piece (Conveys)

/-! ## Divisions -/

/-- How far one looks into a text of the caller's: the pieces that it is divided into. They are
written as the text, and bind nothing. -/
structure Division (α : Type) where
  pieces : String → List (Piece α)
  chars : ∀ text n, Piece.spell Piece.chars n (pieces text) = text.toList
  values : ∀ text, Piece.values (pieces text) = []

namespace Division

variable (d : Division α)

/-- The pieces that a piece is divided into. -/
def divideOne : Piece α → List (Piece α)
  | .raw text => d.pieces text
  | p => [p]

/-- Pieces with every text of the caller's divided. -/
def divide (ps : List (Piece α)) : List (Piece α) := ps.flatMap d.divideOne

@[simp] theorem divide_append (ps qs : List (Piece α)) :
    d.divide (ps ++ qs) = d.divide ps ++ d.divide qs := List.flatMap_append

@[simp] theorem divide_ofKeyword (text : String) :
    d.divide (Piece.ofKeyword text) = Piece.ofKeyword text := by
  unfold Piece.ofKeyword
  split <;> rfl

theorem divide_keyword (text : String) (ps : List (Piece α)) :
    d.divide (.keyword text :: ps) = .keyword text :: d.divide ps := rfl

theorem divide_listing (vs : List α) : d.divide (Piece.listing vs) = Piece.listing vs := by
  induction vs with
  | nil => rfl
  | cons v vs ih =>
    cases vs with
    | nil => rfl
    | cons w vs => exact congrArg (.value v :: .keyword ", " :: ·) ih

theorem divide_membership (x : Identifier) (text : String) (vs : List α) :
    d.divide (.name x :: .keyword text :: (Piece.listing vs ++ [.keyword ")"])) =
      .name x :: .keyword text :: (Piece.listing vs ++ [.keyword ")"]) := by
  change .name x :: .keyword text :: d.divide (Piece.listing vs ++ [.keyword ")"]) = _
  rw [divide_append, divide_listing]
  rfl

theorem values_divide (ps : List (Piece α)) : Piece.values (d.divide ps) = Piece.values ps := by
  induction ps with
  | nil => rfl
  | cons p ps ih =>
    rw [divide, List.flatMap_cons, ← divide, Piece.values_append, ih]
    cases p with
    | raw text => rw [divideOne, d.values]; rfl
    | _ => rfl

/-- Dividing does not change the text. -/
theorem chars_divide (ps : List (Piece α)) (n : Nat) :
    Piece.spell Piece.chars n (d.divide ps) = Piece.spell Piece.chars n ps := by
  induction ps generalizing n with
  | nil => rfl
  | cons p ps ih =>
    rw [divide, List.flatMap_cons, ← divide, Piece.spell_append, ih, Piece.spell]
    cases p with
    | raw text =>
      rw [divideOne, d.chars, d.values]
      rfl
    | _ => simp [divideOne, Piece.count]

/-- The symbols of the divided pieces are the text that is written. -/
theorem text_divide (p : Phrase α) :
    (Piece.spell Piece.symbols 0 (d.divide p.pieces)).flatMap Symbol.chars =
      p.query.sql.toList := by
  rw [Piece.text_spell, chars_divide, Phrase.query_eq, String.toList_ofList]
  rfl

/-! ### Reading what is divided -/

/-- What the pieces that words of the caller's are divided into are read as. -/
def said (parts : List (Part α)) : Formula α :=
  (formula? (Piece.values (parts.map Piece.ofPart))
    (Lexeme.ofSymbols (Piece.spell Piece.symbols 0 (d.divide (parts.map Piece.ofPart))))).getD
      (.const true)

/-- Whatever words of the caller's convey, they convey what they are read as. -/
theorem conveys_said {ps : List (Piece α)} (h : ∀ p ∈ ps, p.IsWords)
    {f : Formula α} (hf : Conveys .conjunction (d.divide ps) f) :
    Conveys .conjunction (d.divide ps) (d.said (ps.filterMap Piece.part?)) := by
  obtain ⟨g, hg, hsame⟩ := hf.conjunction.reads
  rw [values_divide] at hg
  rw [said, Piece.map_ofPart h, formula?_of_reads hg, Option.getD_some]
  exact hf.same hsame.symm

/-- Pieces are read as they are written, with the caller's words divided. These are of the level of
conjunctions: nothing is known but that there is no OR at their top. -/
def reading : Reading α where
  Means level ps f := Conveys level (d.divide ps) (f.subst d.said)
  single := .conjunction
  const b := by
    rw [divide_ofKeyword]
    exact (Piece.means_const b).conveys.operand
  equality x v := (Piece.means_equality x v).conveys.operand
  membership x vs hne negated := by
    rw [divide_membership]
    exact (Piece.means_membership x hne negated).conveys.operand
  conjunction h := h
  disjunction h := h.conjunction
  and hp hq := by
    rw [divide_append, divide_append, divide_ofKeyword]
    exact hp.and hq
  or hp hq := by
    rw [divide_append, divide_append, divide_ofKeyword]
    exact hp.or hq
  group h := by
    rw [divide_keyword, divide_append]
    exact h.group.operand

/-! ### AND and OR -/

/-- Divides a text at AND and OR outside of quotes and parentheses. `skip` characters belong to a
word that is written already, `depth` parentheses are open, `quoted` says that a quote is, and
`before` is the text since the last such word. -/
def cut (skip depth : Nat) (quoted : Bool) (before : List Char) : List Char → List (Piece α)
  | [] => Piece.ofRaw (String.ofList before)
  | c :: rest =>
    if skip ≠ 0 then cut (skip - 1) depth quoted before rest
    else if depth = 0 ∧ quoted = false ∧ " AND ".toList <+: c :: rest then
      Piece.ofRaw (String.ofList before) ++ (.keyword " AND " :: cut 4 depth quoted [] rest)
    else if depth = 0 ∧ quoted = false ∧ " OR ".toList <+: c :: rest then
      Piece.ofRaw (String.ofList before) ++ (.keyword " OR " :: cut 3 depth quoted [] rest)
    else if quoted = false ∧ c = '(' then cut 0 (depth + 1) quoted (before ++ [c]) rest
    else if quoted = false ∧ c = ')' then cut 0 (depth - 1) quoted (before ++ [c]) rest
    else if c = '\'' then cut 0 depth (!quoted) (before ++ [c]) rest
    else cut 0 depth quoted (before ++ [c]) rest

theorem values_cut (cs : List Char) (skip depth : Nat) (quoted : Bool) (before : List Char) :
    Piece.values (cut skip depth quoted before cs : List (Piece α)) = [] := by
  induction cs generalizing skip depth quoted before with
  | nil => exact Piece.values_ofRaw _
  | cons c rest ih =>
    have hword (text : String) (ps : List (Piece α)) (h : Piece.values ps = []) :
        Piece.values (Piece.ofRaw (String.ofList before) ++ .keyword text :: ps) = [] := by
      rw [Piece.values_append, Piece.values_ofRaw, Piece.values_keyword, h]
      rfl
    rw [cut]
    split_ifs
    · exact ih _ _ _ _
    · exact hword _ _ (ih _ _ _ _)
    · exact hword _ _ (ih _ _ _ _)
    all_goals exact ih _ _ _ _

theorem append_drop_of_isPrefix {word rest : List Char} {c : Char} {k : Nat}
    (h : word <+: c :: rest) (hlen : word.length = k + 1) : word ++ rest.drop k = c :: rest := by
  obtain ⟨t, ht⟩ := h
  have hdrop := congrArg (List.drop (k + 1)) ht
  rw [List.drop_left' hlen, List.drop_succ_cons] at hdrop
  rw [← hdrop, ht]

/-- The text since the last word, and behind it what is still to be divided. A word that is written
is passed over; nothing stands in front of what follows it. -/
theorem chars_cut (cs : List Char) (n skip depth : Nat) (quoted : Bool) (before : List Char)
    (h : skip = 0 ∨ before = []) :
    Piece.spell Piece.chars n (cut skip depth quoted before cs : List (Piece α)) =
      before ++ cs.drop skip := by
  induction cs generalizing n skip depth quoted before with
  | nil => simp [cut]
  | cons c rest ih =>
    have hword (text : String) (k : Nat) (hlen : text.toList.length = k + 1)
        (hpre : text.toList <+: c :: rest) :
        Piece.spell Piece.chars n (Piece.ofRaw (String.ofList before) ++
          .keyword text :: cut k depth quoted [] rest : List (Piece α)) = before ++ c :: rest := by
      rw [Piece.spell_append, Piece.chars_ofRaw, Piece.spell, ih _ _ _ _ _ (.inr rfl),
        String.toList_ofList, ← append_drop_of_isPrefix hpre hlen]
      rfl
    have hstep (depth : Nat) (quoted : Bool) : Piece.spell Piece.chars n
        (cut 0 depth quoted (before ++ [c]) rest : List (Piece α)) = before ++ c :: rest := by
      rw [ih _ _ _ _ _ (.inl rfl), List.append_assoc]
      rfl
    rw [cut]
    split_ifs with hskip hand hor
    · obtain rfl : before = [] := h.resolve_left hskip
      obtain ⟨k, rfl⟩ := Nat.exists_eq_succ_of_ne_zero hskip
      exact ih _ _ _ _ _ (.inr rfl)
    all_goals obtain rfl : skip = 0 := not_not.1 hskip
    · exact hword " AND " 4 rfl hand.2.2
    · exact hword " OR " 3 rfl hor.2.2
    all_goals exact hstep _ _

/-- Looks for AND and OR outside of quotes and parentheses. -/
def connectives : Division α where
  pieces text := cut 0 0 false [] text.toList
  chars text n := chars_cut text.toList n 0 0 false [] (.inl rfl)
  values text := values_cut text.toList 0 0 false []

end Division

end ParamSql
