import ParamSql.Error
import ParamSql.Proofs.Comment.Nesting
import ParamSql.Text.Hexadecimal

/-!
# Marks of comments in the wording of rejections

A rejection is worded in words of the library's own with texts of the caller between them, as they
are or escaped and in quotes. The words have no mark of a comment, keep the texts apart from each
other, and an escape neither makes a mark nor breaks one. So the marks of a wording are those of the
texts that it shows.

Results:
* `Comment.marks_flatMap`, `Comment.marksIn_quote`: a text has the marks that it has with escapes.
* `Rejection.marks_message`: the marks of a wording.
-/

namespace ParamSql

open Comment (IsPlain marks marks_append_cons marks_plain_append)

namespace Comment

/-! ## Escapes -/

section

variable {f : Char → List Char}

/-- What stands in front of escaped characters, if it is part of a mark, is not escaped itself. -/
theorem head_of_flatMap (hmark : ∀ c, ¬ IsPlain c → f c = [c])
    (hplain : ∀ c, IsPlain c → f c ≠ [] ∧ AllPlain (f c)) {a : Char} (ha : ¬ IsPlain a)
    {cs tail : List Char} (h : cs.flatMap f = a :: tail) : ∃ rest, cs = a :: rest := by
  cases cs with
  | nil => cases h
  | cons c cs =>
    rw [List.flatMap_cons] at h
    by_cases hc : IsPlain c
    · obtain ⟨hne, hall⟩ := hplain c hc
      obtain ⟨d, ds, hd⟩ := List.exists_cons_of_ne_nil hne
      rw [hd, List.cons_append] at h
      exact (ha ((List.cons.inj h).1 ▸ hall d (by simp [hd]))).elim
    · rw [hmark c hc] at h
      exact ⟨cs, by rw [(List.cons.inj h).1]⟩

/-- Escapes that leave the characters of marks, and have none of them, leave the marks. -/
theorem marks_flatMap (hmark : ∀ c, ¬ IsPlain c → f c = [c])
    (hplain : ∀ c, IsPlain c → f c ≠ [] ∧ AllPlain (f c)) (cs : List Char) :
    marks (cs.flatMap f) = marks cs := by
  have hslash : f '/' = ['/'] := hmark '/' (by decide)
  have hstar : f '*' = ['*'] := hmark '*' (by decide)
  fun_induction marks cs with
  | case1 cs ih =>
    rw [List.flatMap_cons, List.flatMap_cons, hslash, hstar]
    exact congrArg (Mark.opening :: ·) ih
  | case2 cs ih =>
    rw [List.flatMap_cons, List.flatMap_cons, hslash, hstar]
    exact congrArg (Mark.closing :: ·) ih
  | case3 c cs hopening hclosing ih =>
    rw [List.flatMap_cons]
    by_cases hc : IsPlain c
    · rw [marks_plain_append (hplain c hc).2, ih]
    · rw [hmark c hc, List.singleton_append, marks.eq_3, ih]
      · intro tail hslash htail
        obtain ⟨rest, hrest⟩ := head_of_flatMap hmark hplain (by decide) htail
        exact hopening rest hslash hrest
      · intro tail hstar htail
        obtain ⟨rest, hrest⟩ := head_of_flatMap hmark hplain (by decide) htail
        exact hclosing rest hstar hrest
  | case4 => rfl

end

theorem isPlain_of_mem_toDigits {base : Nat} (h1 : 1 < base) (h16 : base ≤ 16) {n : Nat} {c : Char}
    (h : c ∈ Nat.toDigits base n) : IsPlain c := by
  obtain ⟨m, hm, rfl⟩ := Text.exists_of_mem_toDigits h1 h
  exact ⟨Nat.digitChar_ne '/' rfl, fun e => by have := Nat.digitChar_eq_star.1 e; omega⟩

open Text.Quoted (quote quoteChars escape codeEscape)

theorem escape_mark {c : Char} (h : ¬ IsPlain c) : escape c = [c] := by
  have hc : c = '/' ∨ c = '*' := by
    unfold IsPlain at h
    tauto
  rcases hc with rfl | rfl <;> decide +kernel

theorem escape_plain {c : Char} (h : IsPlain c) : escape c ≠ [] ∧ AllPlain (escape c) := by
  have hdigits : AllPlain (Nat.toDigits 16 c.toNat) := fun _ =>
    isPlain_of_mem_toDigits (by decide) (by decide)
  unfold escape
  split
  -- A character without an escape of its own is written by its number or as it is.
  case h_7 =>
    split
    · rw [codeEscape]
      refine ⟨List.cons_ne_nil _ _, ?_⟩
      simp only [AllPlain, List.forall_mem_cons, List.forall_mem_append]
      exact ⟨by decide, by decide, by decide, hdigits, by decide, List.forall_mem_nil _⟩
    · exact ⟨List.cons_ne_nil _ _, by simpa [AllPlain] using h⟩
  all_goals decide

/-- Doubled quotes leave the marks. -/
theorem marks_double (cs : List Char) : marks (Segment.double cs) = marks cs := by
  have hdouble : Segment.double cs = cs.flatMap fun c => if c = '"' then ['"', '"'] else [c] := by
    induction cs with
    | nil => rfl
    | cons c cs ih =>
      rw [Segment.double, List.flatMap_cons, ← ih]
      split <;> rfl
  rw [hdouble]
  refine marks_flatMap (fun c hc => if_neg fun hquote => hc ?_) (fun c hc => ?_) cs
  · rw [hquote]
    decide
  · split
    · decide
    · exact ⟨List.cons_ne_nil _ _, by simpa [AllPlain] using hc⟩

/-! ## Words and texts -/

/-- The marks of a text. -/
def marksIn (text : String) : List Mark := marks text.toList

/-- Words of the library's own: there are some, and none of their characters is part of a mark. -/
def IsOwn (words : String) : Prop := words.toList ≠ [] ∧ AllPlain words.toList

instance (words : String) : Decidable (IsOwn words) := inferInstanceAs (Decidable (_ ∧ _))

section

variable {words : String}

theorem marks_singleton (c : Char) : marks [c] = [] :=
  marks.eq_3 c [] (fun _ _ h => List.cons_ne_nil _ _ h.symm) fun _ _ h =>
    List.cons_ne_nil _ _ h.symm

@[simp] theorem marksIn_own (h : IsOwn words) : marksIn words = [] := by
  have hmarks := marks_plain_append h.2 []
  rwa [List.append_nil] at hmarks

@[simp] theorem marksIn_own_append (h : IsOwn words) (text : String) :
    marksIn (words ++ text) = marksIn text := by
  rw [marksIn, String.toList_append, marks_plain_append h.2, marksIn]

/-- Words keep the texts around them apart. -/
@[simp] theorem marksIn_append_own_append (h : IsOwn words) (before text : String) :
    marksIn (before ++ words ++ text) = marksIn before ++ marksIn text := by
  obtain ⟨c, more, hwords⟩ := List.exists_cons_of_ne_nil h.1
  have hplain := h.2
  rw [hwords, AllPlain, List.forall_mem_cons] at hplain
  rw [marksIn, String.toList_append, String.toList_append, hwords, List.append_assoc,
    List.cons_append, marks_append_cons hplain.1, marks_plain_append hplain.2, marksIn, marksIn]

@[simp] theorem marksIn_append_own (h : IsOwn words) (text : String) :
    marksIn (text ++ words) = marksIn text := by
  have hmarks := marksIn_append_own_append h text ""
  have hempty : marksIn "" = [] := rfl
  rwa [String.append_empty, hempty, List.append_nil] at hmarks

@[simp] theorem marksIn_own_push (h : IsOwn words) (c : Char) : marksIn (words.push c) = [] := by
  rw [marksIn, String.toList_push, marks_plain_append h.2]
  exact marks_singleton c

end

@[simp] theorem marksIn_singleton (c : Char) : marksIn (String.singleton c) = [] := by
  rw [marksIn, String.toList_singleton, marks_singleton]

@[simp] theorem marksIn_repr (n : Nat) : marksIn n.repr = [] := by
  have hplain : AllPlain (Nat.toDigits 10 n) := fun _ =>
    isPlain_of_mem_toDigits (by decide) (by decide)
  rw [marksIn, Nat.repr_eq_ofList_toDigits, String.toList_ofList,
    ← List.append_nil (Nat.toDigits 10 n), marks_plain_append hplain, marks]

/-- A text in quotes has the marks that it has without. -/
@[simp] theorem marksIn_quote (text : String) : marksIn (quote text) = marksIn text := by
  have hquote : IsPlain '"' := by decide
  rw [marksIn, quote, String.toList_ofList, quoteChars, ← List.nil_append ('"' :: _),
    marks_append_cons hquote, marks_append_cons hquote,
    marks_flatMap (fun _ => escape_mark) fun _ => escape_plain]
  exact List.append_nil _

end Comment

/-! ## Texts that a wording shows -/

/-- The texts of the caller that the wording of a fault shows, in order. -/
def Identifier.Fault.texts : Identifier.Fault → List String
  | .badCharacter c input => [c.toString, input]
  | .emptySegment input => [input]
  | .finalDot input => [input]
  | .afterQuoted c input => [c.toString, input]
  | .badName name => [name]
  | _ => []

/-- The texts of the caller that the wording of a recorded fault shows. -/
def BuildFault.texts : BuildFault → List String
  | .identifier fault => fault.texts
  | .templateArity sql _ _ => [sql]

/-- The texts of the caller that the wording of a rejection shows, in order. -/
def Rejection.texts : Rejection → List String
  | .identifier fault => fault.texts
  | .recorded fault => fault.texts
  | .sortDirection direction column => [direction, column]
  | .sortNulls nulls column => [nulls, column]
  | .repeatedColumn name => [name]
  | .constraintName fault => fault.texts
  | .unknownTable table => [table]
  | .unknownColumn column schema table => [column, schema, table]
  | .unknownConstraint name schema table => [name, schema, table]
  | .other text => [text]
  | _ => []

open Comment (marksIn)

theorem Identifier.Fault.marks_message (fault : Fault) :
    marksIn fault.message = fault.texts.flatMap marksIn := by
  unfold message texts
  cases fault <;> simp (disch := decide +kernel)

theorem BuildFault.marks_message (fault : BuildFault) :
    marksIn fault.message = fault.texts.flatMap marksIn := by
  unfold message texts rejectionPrefix
  cases fault <;> simp (disch := decide +kernel) [Identifier.Fault.marks_message]

/-- The marks of a wording are those of the texts that it shows. -/
theorem Rejection.marks_message (cause : Rejection) :
    marksIn cause.message = cause.texts.flatMap marksIn := by
  unfold message texts rejectionPrefix
  cases cause <;> simp (disch := decide +kernel) [Identifier.Fault.marks_message,
    BuildFault.marks_message]

end ParamSql
