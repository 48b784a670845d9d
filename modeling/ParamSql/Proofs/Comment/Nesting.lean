import Mathlib.Data.List.Infix

/-!
# Comments that nest

A server skips a comment from `/*` to the `*/` that closes it, and a `/*` inside opens a further
comment that has to be closed first. Marks are read from the left, and no character belongs to two
of them, so that `/*/` opens a comment and closes none. A text that is put between the outermost
marks stays inside exactly if it closes what it opens, and no more.

Results:
* `nesting_eq_some_iff`, `balanced_iff`: counting marks from the left, and balanced marks.
* `marks_append_cons`, `marks_eq_nil`: marks do not reach over other characters.
* `behind_append_cons`: what stands behind a comment, from the marks of a text in it.
* `isComment_iff`: when a text between the outermost marks stays in the comment.
-/

namespace ParamSql.Comment

/-- What opens and what closes a comment. -/
inductive Mark where
  | opening
  | closing
  deriving DecidableEq, Repr

/-- The character is part of no mark. -/
def IsPlain (c : Char) : Prop := c ≠ '/' ∧ c ≠ '*'

instance (c : Char) : Decidable (IsPlain c) := inferInstanceAs (Decidable (_ ∧ _))

/-- None of the characters is part of a mark. -/
def AllPlain (cs : List Char) : Prop := ∀ c ∈ cs, IsPlain c

-- The instance is named, as a search can come upon one that goes through all characters there are.
instance (cs : List Char) : Decidable (AllPlain cs) := List.decidableBAll IsPlain cs

/-- The marks of a text, read from the left. -/
def marks : List Char → List Mark
  | '/' :: '*' :: rest => .opening :: marks rest
  | '*' :: '/' :: rest => .closing :: marks rest
  | _ :: rest => marks rest
  | [] => []

/-- What stands behind a comment, read from inside it; `inner` more comments are open in it. There
is none if the comment is not closed. -/
def behind (inner : Nat) : List Char → Option (List Char)
  | '/' :: '*' :: rest => behind (inner + 1) rest
  | '*' :: '/' :: rest => if inner = 0 then some rest else behind (inner - 1) rest
  | _ :: rest => behind inner rest
  | [] => none

/-- The text is one comment: it opens with the first two characters and is closed by the last. -/
def IsComment (cs : List Char) : Prop := ∃ body, cs = '/' :: '*' :: body ∧ behind 0 body = some []

/-- Nothing is closed that was not opened, and all that is opened is closed. -/
structure Balanced (ms : List Mark) : Prop where
  opened : ∀ first, first <+: ms → first.count .closing ≤ first.count .opening
  closed : ms.count .opening = ms.count .closing

/-- The text has a mark of a comment somewhere. -/
def HasMark (cs : List Char) : Prop := ['/', '*'] <:+: cs ∨ ['*', '/'] <:+: cs

instance (cs : List Char) : Decidable (HasMark cs) := inferInstanceAs (Decidable (_ ∨ _))

theorem HasMark.mono {part cs : List Char} (h : HasMark part) (hpart : part <:+: cs) : HasMark cs :=
  h.imp (·.trans hpart) (·.trans hpart)

/-! ## Counting marks -/

/-- How many comments are open after marks, if `inner` are open before them; none if more are closed
than are open. -/
def nesting (inner : Nat) : List Mark → Option Nat
  | [] => some inner
  | .opening :: ms => nesting (inner + 1) ms
  | .closing :: ms => if inner = 0 then none else nesting (inner - 1) ms

theorem forall_prefix_cons {m : Mark} {ms : List Mark} {P : List Mark → Prop} :
    (∀ first, first <+: m :: ms → P first) ↔ P [] ∧ ∀ first, first <+: ms → P (m :: first) := by
  constructor
  · intro h
    exact ⟨h [] List.nil_prefix, fun first hfirst => h _ (List.cons_prefix_cons.2 ⟨rfl, hfirst⟩)⟩
  · rintro ⟨hnil, hcons⟩ first hfirst
    rcases List.prefix_cons_iff.1 hfirst with rfl | ⟨rest, rfl, hrest⟩
    · exact hnil
    · exact hcons rest hrest

theorem nesting_eq_some_iff (inner left : Nat) (ms : List Mark) :
    nesting inner ms = some left ↔
      (∀ first, first <+: ms → first.count .closing ≤ inner + first.count .opening) ∧
        left + ms.count .closing = inner + ms.count .opening := by
  induction ms generalizing inner with
  | nil => simp [nesting, eq_comm]
  | cons m ms ih =>
    rw [forall_prefix_cons]
    cases m with
    | opening =>
      have hne : Mark.opening ≠ .closing := by decide
      simp only [nesting, ih, List.count_cons_self, List.count_cons_of_ne hne, List.count_nil,
        Nat.zero_le, true_and]
      exact and_congr (forall₂_congr fun first _ => by omega) (by omega)
    | closing =>
      have hne : Mark.closing ≠ .opening := by decide
      simp only [nesting, List.count_cons_self, List.count_cons_of_ne hne, List.count_nil,
        Nat.zero_le, true_and]
      by_cases hinner : inner = 0
      · -- The mark alone is a beginning that closes more than is open.
        rw [if_pos hinner]
        refine iff_of_false (by simp) fun h => ?_
        have hmark := h.1 [] List.nil_prefix
        simp [hinner] at hmark
      · rw [if_neg hinner, ih]
        exact and_congr (forall₂_congr fun first _ => by omega) (by omega)

/-- Marks are balanced exactly if counting them leads back to where it began. -/
theorem balanced_iff (ms : List Mark) : Balanced ms ↔ nesting 0 ms = some 0 := by
  rw [nesting_eq_some_iff]
  simp only [Nat.zero_add]
  constructor
  · rintro ⟨hopened, hclosed⟩
    exact ⟨hopened, hclosed.symm⟩
  · rintro ⟨hopened, hclosed⟩
    exact ⟨hopened, hclosed.symm⟩

instance (ms : List Mark) : Decidable (Balanced ms) := decidable_of_iff _ (balanced_iff ms).symm

/-! ## Marks of a text -/

section

variable {c : Char}

/-- Two characters that do not stand at the start of a text do not come to stand there by what is
put behind it. -/
theorem not_pair_append {a b d : Char} {cs rest : List Char} (hc : c ≠ b)
    (h : ∀ tail, d = a → cs = b :: tail → False) :
    ∀ tail, d = a → cs ++ c :: rest = b :: tail → False := by
  intro tail hd hcs
  cases cs with
  | nil => exact hc (List.cons.inj hcs).1
  | cons e cs => exact h cs hd (by rw [(List.cons.inj hcs).1])

/-- A character that is part of no mark keeps what stands before it apart from what follows. -/
theorem marks_append_cons (hc : IsPlain c) (cs rest : List Char) :
    marks (cs ++ c :: rest) = marks cs ++ marks rest := by
  fun_induction marks cs with
  | case1 cs ih => rw [List.cons_append, List.cons_append, marks, ih, List.cons_append]
  | case2 cs ih => rw [List.cons_append, List.cons_append, marks, ih, List.cons_append]
  | case3 d cs hopening hclosing ih =>
    rw [List.cons_append, marks.eq_3 _ _ (not_pair_append hc.2 hopening)
      (not_pair_append hc.1 hclosing), ih]
  | case4 =>
    rw [List.nil_append, List.nil_append,
      marks.eq_3 _ _ (fun _ h _ => hc.1 h) fun _ h _ => hc.2 h]

theorem marks_plain_append {front : List Char} (h : AllPlain front) (rest : List Char) :
    marks (front ++ rest) = marks rest := by
  induction front with
  | nil => rfl
  | cons d front ih =>
    obtain ⟨hd, hfront⟩ := List.forall_mem_cons.1 h
    rw [List.cons_append, ← List.nil_append (d :: _), marks_append_cons hd, ih hfront]
    rfl

/-- A text without marks has none to be read. -/
theorem marks_eq_nil {cs : List Char} (h : ¬ HasMark cs) : marks cs = [] := by
  fun_induction marks cs with
  | case1 cs ih => exact (h (.inl ⟨[], cs, rfl⟩)).elim
  | case2 cs ih => exact (h (.inr ⟨[], cs, rfl⟩)).elim
  | case3 d cs _ _ ih => exact ih fun hmark => h (hmark.imp List.infix_cons List.infix_cons)
  | case4 => rfl

/-- What stands behind a comment, if a text in it stands apart from what follows. -/
theorem behind_append_cons (hc : IsPlain c) (inner : Nat) (cs rest : List Char) :
    behind inner (cs ++ c :: rest) =
      match nesting inner (marks cs) with
      | some left => behind left rest
      | none => (behind inner cs).map (· ++ c :: rest) := by
  fun_induction marks cs generalizing inner with
  | case1 cs ih => exact ih (inner + 1)
  | case2 cs ih =>
    rw [List.cons_append, List.cons_append, behind, behind, nesting]
    split
    · rfl
    · exact ih (inner - 1)
  | case3 d cs hopening hclosing ih =>
    rw [List.cons_append, behind.eq_3 _ _ _ (not_pair_append hc.2 hopening)
      (not_pair_append hc.1 hclosing), behind.eq_3 _ _ _ hopening hclosing, ih]
  | case4 =>
    rw [List.nil_append, behind.eq_3 _ _ _ (fun _ h _ => hc.1 h) fun _ h _ => hc.2 h]
    rfl

end

/-- A text between the outermost marks stays in the comment exactly if its own marks are
balanced. -/
theorem isComment_iff (text : List Char) :
    IsComment ('/' :: '*' :: ' ' :: (text ++ [' ', '*', '/'])) ↔ Balanced (marks text) := by
  have hread : behind 0 (' ' :: (text ++ [' ', '*', '/'])) = behind 0 (text ++ [' ', '*', '/']) :=
    rfl
  have hiff : IsComment ('/' :: '*' :: ' ' :: (text ++ [' ', '*', '/'])) ↔
      behind 0 (text ++ [' ', '*', '/']) = some [] := by
    rw [← hread]
    constructor
    · rintro ⟨body, hbody, h⟩
      simp only [List.cons.injEq, true_and] at hbody
      rwa [hbody]
    · exact fun h => ⟨_, rfl, h⟩
  rw [hiff, balanced_iff, behind_append_cons (by decide)]
  cases nesting 0 (marks text) with
  | none => simp
  | some left =>
    cases left with
    | zero => exact iff_of_true rfl rfl
    | succ left => exact iff_of_false (by simp [behind]) (by simp)

end ParamSql.Comment
