import ParamSql.Proofs.Reading.Lexer

/-!
# The grammar of conditions

How SQL reads the lexemes of a condition: AND binds tighter than OR, both group from the left, and
parentheses group what is between them. A word where an operand has to stand is a column, whatever
its letters, unless it stands alone and is `TRUE` or `FALSE`; a run of the caller's words is one
operand. Placeholders are read as the values that are bound to them.

Results:
* `formula?_of_reads`: what the grammar reads is found by one reader, from left to right.
* `Reads.unique`: no text has two readings.
-/

namespace ParamSql

variable {α : Type}

theorem mapM_cons_eq_some_iff {β γ : Type} {f : β → Option γ} {b : β} {bs : List β}
    {cs : List γ} : (b :: bs).mapM f = some cs ↔
      ∃ c ds, f b = some c ∧ bs.mapM f = some ds ∧ cs = c :: ds := by
  simp only [List.mapM_cons, Option.bind_eq_bind, Option.bind_eq_some_iff, Option.pure_def,
    Option.some.injEq]
  constructor
  · rintro ⟨c, hc, ds, hds, rfl⟩
    exact ⟨c, ds, hc, hds, rfl⟩
  · rintro ⟨c, ds, hc, hds, rfl⟩
    exact ⟨c, hc, ds, hds, rfl⟩

/-- The value that a placeholder of this number stands for. -/
def boundTo (values : List α) : Nat → Option α
  | 0 => none
  | k + 1 => values[k]?

/-- A part with the value that its placeholder stands for. -/
def Part.bind (values : List α) : Part Nat → Option (Part α)
  | .text t => some (.text t)
  | .value k => (boundTo values k).map .value

namespace Lexeme

/-- The word of an operator. -/
def operator : Junction → Lexeme
  | .and => .word "AND".toList
  | .or => .word "OR".toList

/-- The word of a truth value. -/
def constant (b : Bool) : Lexeme := .word (if b then "TRUE" else "FALSE").toList

/-- The words of a test for membership. -/
def membership (negated : Bool) : List Lexeme :=
  if negated then [.word "NOT".toList, .word "IN".toList] else [.word "IN".toList]

/-- Placeholders with commas. -/
def listed : List Nat → List Lexeme
  | [] => []
  | [k] => [.run [.value k]]
  | k :: ks => .run [.value k] :: .mark ',' :: listed ks

end Lexeme

open Lexeme (operator constant membership listed)

/-- What stands in a condition: something with OR, with AND, or without both. -/
inductive Precedence where
  | disjunction
  | conjunction
  | operand
  deriving DecidableEq, Repr

/-- The lexemes are a condition of this level that says this, where these values are bound. -/
inductive Reads (values : List α) : Precedence → List Lexeme → Formula α → Prop where
  | operand {s f} : Reads values .operand s f → Reads values .conjunction s f
  | conjunction {s f} : Reads values .conjunction s f → Reads values .disjunction s f
  | and {s t f g} : Reads values .conjunction s f → Reads values .operand t g →
      Reads values .conjunction (s ++ operator .and :: t) (.and f g)
  | or {s t f g} : Reads values .disjunction s f → Reads values .conjunction t g →
      Reads values .disjunction (s ++ operator .or :: t) (.or f g)
  | group {s f} : Reads values .disjunction s f →
      Reads values .operand (.mark '(' :: (s ++ [.mark ')'])) f
  | const (b : Bool) : Reads values .operand [constant b] (.const b)
  | equal {column k v} : boundTo values k = some v →
      Reads values .operand [.word column, .mark '=', .run [.value k]] (.test (.equal column v))
  | among {column ks vs} (negated : Bool) : ks ≠ [] → ks.mapM (boundTo values) = some vs →
      Reads values .operand
        (.word column :: (membership negated ++ .mark '(' :: (listed ks ++ [.mark ')'])))
        (.test (.among column vs negated))
  | words {parts parts'} : parts.mapM (Part.bind values) = some parts' →
      Reads values .operand [.run parts] (.test (.words parts'))

/-! ## Reading from the left -/

/-- What is read between two parentheses so far: the operands of OR that are complete, and the
operands of AND under way. -/
structure Frame (α : Type) where
  left : Option (Formula α)
  chain : Option (Formula α)

namespace Frame

/-- Nothing read yet. -/
def empty : Frame α := ⟨none, none⟩

/-- One operand more, which belongs to the conjunction under way. -/
def put (fr : Frame α) (f : Formula α) : Frame α :=
  match fr.chain with
  | none => { fr with chain := some f }
  | some g => { fr with chain := some (.and g f) }

/-- The whole formula, if an operand is not missing. -/
def close : Frame α → Option (Formula α)
  | ⟨none, some g⟩ => some g
  | ⟨some f, some g⟩ => some (.or f g)
  | _ => none

end Frame

/-- Where the reader is. -/
inductive Phase (α : Type) where
  | operand
  | operator
  /-- In a list of values, of which these are read. -/
  | values (column : List Char) (negated : Bool) (vs : List α)

/-- Reads a condition from the left, with the frames of the open parentheses. -/
def read (values : List α) : Phase α → Frame α → List (Frame α) → List Lexeme → Option (Formula α)
  | .operand, fr, outer, .mark '(' :: rest => read values .operand .empty (fr :: outer) rest
  | .operand, fr, outer, .run parts :: rest =>
    (parts.mapM (Part.bind values)).bind fun parts =>
      read values .operator (fr.put (.test (.words parts))) outer rest
  | .operand, fr, outer, .word column :: .mark '=' :: .run [.value k] :: rest =>
    (boundTo values k).bind fun v =>
      read values .operator (fr.put (.test (.equal column v))) outer rest
  | .operand, fr, outer, .word column :: .word ['I', 'N'] :: .mark '(' :: rest =>
    read values (.values column false []) fr outer rest
  | .operand, fr, outer,
      .word column :: .word ['N', 'O', 'T'] :: .word ['I', 'N'] :: .mark '(' :: rest =>
    read values (.values column true []) fr outer rest
  | .operand, fr, outer, .word ['T', 'R', 'U', 'E'] :: rest =>
    read values .operator (fr.put (.const true)) outer rest
  | .operand, fr, outer, .word ['F', 'A', 'L', 'S', 'E'] :: rest =>
    read values .operator (fr.put (.const false)) outer rest
  | .values column negated vs, fr, outer, .run [.value k] :: .mark ',' :: rest =>
    (boundTo values k).bind fun v =>
      read values (.values column negated (vs ++ [v])) fr outer rest
  | .values column negated vs, fr, outer, .run [.value k] :: .mark ')' :: rest =>
    (boundTo values k).bind fun v =>
      read values .operator (fr.put (.test (.among column (vs ++ [v]) negated))) outer rest
  | .operator, fr, outer, .word ['A', 'N', 'D'] :: rest => read values .operand fr outer rest
  | .operator, fr, outer, .word ['O', 'R'] :: rest =>
    fr.close.bind fun f => read values .operand ⟨some f, none⟩ outer rest
  | .operator, fr, before :: outer, .mark ')' :: rest =>
    fr.close.bind fun f => read values .operator (before.put f) outer rest
  | .operator, fr, [], [] => fr.close
  | _, _, _, _ => none


/-- The formula that the lexemes say, if they are a condition. -/
def formula? (values : List α) (lexemes : List Lexeme) : Option (Formula α) :=
  read values .operand .empty [] lexemes

/-! ## The grammar reads in one way -/

/-- What may stand behind an operand. -/
def EndsOperand : List Lexeme → Prop
  | [] => True
  | s :: _ => s = operator .and ∨ s = operator .or ∨ s = .mark ')'

/-- What the reader does with lexemes of a level that say `f`, wherever they stand. -/
def Consumes (values : List α) : Precedence → List Lexeme → Formula α → Prop
  | .operand, s, f => ∀ fr outer rest, EndsOperand rest →
      read values .operand fr outer (s ++ rest) = read values .operator (fr.put f) outer rest
  | .conjunction, s, f => ∀ left outer rest, EndsOperand rest →
      read values .operand ⟨left, none⟩ outer (s ++ rest) =
        read values .operator ⟨left, some f⟩ outer rest
  | .disjunction, s, f => ∀ outer rest, EndsOperand rest →
      ∃ fr : Frame α, fr.close = some f ∧
        read values .operand .empty outer (s ++ rest) = read values .operator fr outer rest

section

variable {values : List α}

theorem read_const (b : Bool) (fr : Frame α) (outer : List (Frame α)) {rest : List Lexeme}
    (h : EndsOperand rest) :
    read values .operand fr outer (constant b :: rest) =
      read values .operator (fr.put (.const b)) outer rest := by
  cases rest with
  | nil => cases b <;> rfl
  | cons s rest => rcases h with rfl | rfl | rfl <;> cases b <;> rfl

theorem read_listed (column : List Char) (negated : Bool) {ks : List Nat} (hne : ks ≠ [])
    {vs : List α} (h : ks.mapM (boundTo values) = some vs) (before : List α) (fr : Frame α)
    (outer : List (Frame α)) (rest : List Lexeme) :
    read values (.values column negated before) fr outer (listed ks ++ .mark ')' :: rest) =
      read values .operator (fr.put (.test (.among column (before ++ vs) negated))) outer rest := by
  induction ks generalizing before vs with
  | nil => exact absurd rfl hne
  | cons k ks ih =>
    obtain ⟨v, ws, hv, hws, rfl⟩ := mapM_cons_eq_some_iff.1 h
    cases ks with
    | nil =>
      obtain rfl : ws = [] := by simpa using hws.symm
      change (boundTo values k).bind _ = _
      rw [hv]
      rfl
    | cons k' ks =>
      change (boundTo values k).bind (fun v => read values (.values column negated (before ++ [v]))
        fr outer (listed (k' :: ks) ++ .mark ')' :: rest)) = _
      rw [hv, Option.bind_some, ih (by simp) hws, List.append_assoc]
      rfl

theorem consumes_of_reads {level : Precedence} {s : List Lexeme} {f : Formula α}
    (h : Reads values level s f) : Consumes values level s f := by
  induction h with
  | operand _ ih =>
    intro left outer rest hr
    rw [ih _ _ _ hr]
    rfl
  | conjunction _ ih =>
    intro outer rest hr
    exact ⟨⟨none, some _⟩, rfl, ih none outer rest hr⟩
  | @and s t f g _ _ ihs iht =>
    intro left outer rest hr
    rw [List.append_assoc, List.cons_append,
      ihs left outer (operator .and :: (t ++ rest)) (.inl rfl)]
    change read values .operand ⟨left, some f⟩ outer (t ++ rest) = _
    rw [iht _ _ _ hr]
    rfl
  | @or s t f g _ _ ihs iht =>
    intro outer rest hr
    obtain ⟨fr, hfr, hread⟩ := ihs outer (operator .or :: t ++ rest) (.inr (.inl rfl))
    refine ⟨⟨some f, some g⟩, rfl, ?_⟩
    rw [List.append_assoc, hread]
    change fr.close.bind (fun f => read values .operand ⟨some f, none⟩ outer (t ++ rest)) = _
    rw [hfr, Option.bind_some, iht _ _ _ hr]
  | @group s f _ ih =>
    intro fr outer rest hr
    obtain ⟨inner, hinner, hread⟩ := ih (fr :: outer) (.mark ')' :: rest) (.inr (.inr rfl))
    change read values .operand .empty (fr :: outer) (s ++ [.mark ')'] ++ rest) = _
    rw [List.append_assoc, List.singleton_append, hread]
    change inner.close.bind (fun f => read values .operator (fr.put f) outer rest) = _
    rw [hinner, Option.bind_some]
  | const b =>
    intro fr outer rest hr
    exact read_const b fr outer hr
  | @equal column k v hv =>
    intro fr outer rest hr
    change (boundTo values k).bind (fun v => read values .operator
      (fr.put (.test (.equal column v))) outer rest) = _
    rw [hv, Option.bind_some]
  | @among column ks vs negated hne hvs =>
    intro fr outer rest hr
    have hlist := read_listed column negated hne hvs [] fr outer rest
    rw [List.nil_append] at hlist
    rw [← hlist]
    cases negated <;> simp only [membership, List.cons_append, List.append_assoc,
      List.nil_append, if_true] <;> rfl
  | @words parts parts' hparts =>
    intro fr outer rest hr
    change (parts.mapM (Part.bind values)).bind (fun parts => read values .operator
      (fr.put (.test (.words parts))) outer rest) = _
    rw [hparts, Option.bind_some]

/-- A condition is read from left to right as the grammar says. -/
theorem formula?_of_reads {s : List Lexeme} {f : Formula α}
    (h : Reads values .disjunction s f) : formula? values s = some f := by
  obtain ⟨fr, hfr, hread⟩ := consumes_of_reads h [] [] trivial
  rw [List.append_nil] at hread
  rw [formula?, hread]
  exact hfr

/-- No text has two readings. -/
theorem Reads.unique {s : List Lexeme} {f g : Formula α} (h : Reads values .disjunction s f)
    (h' : Reads values .disjunction s g) : f = g :=
  Option.some.inj ((formula?_of_reads h).symm.trans (formula?_of_reads h'))

end

end ParamSql
