import ParamSql.Proofs.Lexical.Phrases
import ParamSql.Proofs.Template.Escape

/-!
# Parameters that are read off a filled template

A server reads a parameter off the text as a `$` that does not stand behind a character of a word,
with all digits behind it. Placeholders are filled in without spaces, so that a character of the
caller's can take the `$` into a word, or lengthen the number. Exactly if none does, the parameters
are those of the values.

Results:
* `tokens_skip`, `tokens_number`: the parameters behind a text, and those of a filled placeholder.
* `tokens_written_iff`: the parameters of texts with placeholders between them.
* `Predicate.template_parameters`: the parameters of a template.
-/

namespace ParamSql

variable {α : Type}

namespace Template

open Piece (numbers)

/-! ## Parameters of a text -/

/-- The characters of words: those of identifiers, and everything beyond ASCII. -/
def isWord (c : Char) : Bool := Segment.isPart c || 128 ≤ c.toNat

/-- The digits of the parameters in a text outside of quotes: of every `$` with digits behind it
that does not stand behind a character of a word. `before` says whether such a character stands
before the text. -/
def tokens : (before : Bool) → List Char → List (List Char)
  | _, [] => []
  | before, c :: rest =>
    let digits := rest.takeWhile Char.isDigit
    if c = '$' ∧ before = false ∧ digits ≠ [] then digits :: tokens true rest
    else tokens (isWord c) rest

/-- Whether a character of a word stands at the end of a text, or before it if it is empty. -/
def endsInWord (before : Bool) (text : List Char) : Bool := text.foldl (fun _ c => isWord c) before

theorem endsInWord_of_ne {text : List Char} (h : text ≠ []) (before : Bool) :
    endsInWord before text = endsInWord false text := by
  cases text with
  | nil => exact absurd rfl h
  | cons c text => rfl

/-- A text without `$` has no parameter, and only its last character matters to what follows. -/
theorem tokens_skip {text : List Char} (h : '$' ∉ text) (before : Bool) (rest : List Char) :
    tokens before (text ++ rest) = tokens (endsInWord before text) rest := by
  induction text generalizing before with
  | nil => rfl
  | cons c text ih =>
    rw [List.mem_cons, not_or] at h
    obtain ⟨hc, htext⟩ := h
    rw [List.cons_append, tokens, if_neg fun e => hc e.1.symm, ih htext]
    rfl

section

variable {digits : List Char} (hne : digits ≠ []) (h : ∀ c ∈ digits, c.isDigit = true)

include h

theorem notMem_digits : '$' ∉ digits := fun hmem => absurd (h '$' hmem) (by decide)

theorem takeWhile_digits (rest : List Char) :
    (digits ++ rest).takeWhile Char.isDigit = digits ++ rest.takeWhile Char.isDigit :=
  List.takeWhile_append_of_pos h

include hne

theorem endsInWord_digits (before : Bool) : endsInWord before digits = true := by
  have hlast : (digits.getLast hne).isDigit = true := h _ (List.getLast_mem hne)
  have hword : isWord (digits.getLast hne) = true := by
    rw [isWord, isPart_of_isDigit hlast, Bool.true_or]
  rw [endsInWord, ← List.dropLast_append_getLast hne, List.foldl_append]
  exact hword

/-- A number behind a `$` is read with all digits that follow, unless a word goes on there. -/
theorem tokens_number (before : Bool) (rest : List Char) :
    tokens before ('$' :: (digits ++ rest)) =
      (if before then [] else [digits ++ rest.takeWhile Char.isDigit]) ++ tokens true rest := by
  have hskip (b : Bool) : tokens b (digits ++ rest) = tokens true rest := by
    rw [tokens_skip (notMem_digits h), endsInWord_digits hne h]
  rw [tokens, takeWhile_digits h, hskip, hskip]
  cases before with
  | true => simp
  | false => simp [hne]

end

/-! ## Parameters between texts -/

/-- No text touches a placeholder with a character that is taken for a part of it: no text before a
placeholder ends in a character of a word, and no text behind one begins with a digit. -/
structure Free (text : List Char) (more : List (List Char)) : Prop where
  before : ∀ t ∈ (text :: more).dropLast, endsInWord false t = false
  behind : ∀ t ∈ more, t.head?.any Char.isDigit = false

theorem free_cons {text next : List Char} {more : List (List Char)} :
    Free text (next :: more) ↔
      endsInWord false text = false ∧ next.head?.any Char.isDigit = false ∧ Free next more := by
  have hlast : (text :: next :: more).dropLast = text :: (next :: more).dropLast := rfl
  constructor
  · intro h
    have hbefore := h.before
    rw [hlast] at hbefore
    obtain ⟨htext, hrest⟩ := List.forall_mem_cons.1 hbefore
    obtain ⟨hnext, hmore⟩ := List.forall_mem_cons.1 h.behind
    exact ⟨htext, hnext, hrest, hmore⟩
  · rintro ⟨htext, hnext, hmore⟩
    constructor
    · rw [hlast]
      exact List.forall_mem_cons.2 ⟨htext, hmore.before⟩
    · exact List.forall_mem_cons.2 ⟨hnext, hmore.behind⟩

theorem numbers_succ (n count : Nat) :
    numbers n (count + 1) = Nat.toDigits 10 (n + 1) :: numbers (n + 1) count := by
  rw [numbers, List.range'_succ, List.map_cons]
  rfl

theorem length_numbers (n count : Nat) : (numbers n count).length = count := by
  rw [numbers, List.length_map, List.length_range']

/-- Digits that follow a number are those at the beginning of the text behind it. -/
theorem takeWhile_written (n : Nat) (text : List Char) (more : List (List Char)) :
    (written n text more).takeWhile Char.isDigit = [] ↔ text.head?.any Char.isDigit = false := by
  cases text with
  | nil =>
    cases more with
    | nil => simp [written]
    | cons next more =>
      have hdollar : ¬ Char.isDigit '$' = true := by decide
      rw [written, List.nil_append, List.takeWhile_cons_of_neg hdollar]
      simp
  | cons c text =>
    have hwritten : written n (c :: text) more = c :: written n text more := by
      cases more <;> rfl
    rw [hwritten]
    cases hc : c.isDigit <;> simp [hc]

/-- The parameters of a text, of the placeholder behind it, and of what follows. -/
theorem tokens_written {text : List Char} (h : '$' ∉ text) (before : Bool) (n : Nat)
    (next : List Char) (more : List (List Char)) :
    tokens before (written n text (next :: more)) =
      (if endsInWord before text then []
        else [Nat.toDigits 10 (n + 1) ++ (written (n + 1) next more).takeWhile Char.isDigit]) ++
      tokens true (written (n + 1) next more) := by
  have hdigits : ∀ c ∈ Nat.toDigits 10 (n + 1), c.isDigit = true := fun _ =>
    Nat.isDigit_of_mem_toDigits (by decide) (by decide)
  rw [written, tokens_skip h, tokens_number Nat.toDigits_ne_nil hdigits]

/-- There are never more parameters than placeholders. -/
theorem length_tokens_le {text : List Char} {more : List (List Char)}
    (h : ∀ t ∈ text :: more, '$' ∉ t) (before : Bool) (n : Nat) :
    (tokens before (written n text more)).length ≤ more.length := by
  obtain ⟨htext, hmore⟩ := List.forall_mem_cons.1 h
  induction more generalizing text before n with
  | nil =>
    have hnone := tokens_skip htext before []
    rw [List.append_nil] at hnone
    rw [written, hnone]
    exact Nat.zero_le _
  | cons next more ih =>
    obtain ⟨hnext, hrest⟩ := List.forall_mem_cons.1 hmore
    have hfollowing := ih hmore true (n + 1) hnext hrest
    rw [tokens_written htext, List.length_append, List.length_cons]
    split
    · rw [List.length_nil]
      omega
    · rw [List.length_singleton]
      omega

/-- The parameters of texts with placeholders between them are those of the values exactly if no
text touches a placeholder. -/
theorem tokens_written_iff {text : List Char} {more : List (List Char)}
    (h : ∀ t ∈ text :: more, '$' ∉ t) (hseparate : Separate more) {before : Bool}
    (hbefore : more ≠ [] → endsInWord before text = endsInWord false text) (n : Nat) :
    tokens before (written n text more) = numbers n more.length ↔ Free text more := by
  obtain ⟨htext, hmore⟩ := List.forall_mem_cons.1 h
  induction more generalizing text before n with
  | nil =>
    have hnone := tokens_skip htext before []
    rw [List.append_nil] at hnone
    rw [written, hnone]
    exact iff_of_true rfl ⟨by simp, by simp⟩
  | cons next more ih =>
    obtain ⟨hnext, hrest⟩ := List.forall_mem_cons.1 hmore
    rw [tokens_written htext, hbefore (List.cons_ne_nil next more), List.length_cons, numbers_succ,
      free_cons]
    cases hend : endsInWord false text with
    | true =>
      -- The first placeholder is lost, and the others are too few.
      have hfew := length_tokens_le hmore true (n + 1)
      refine iff_of_false (fun e => ?_) fun e => Bool.noConfusion e.1
      have hlength := congrArg List.length e
      rw [if_pos rfl, List.nil_append, List.length_cons, length_numbers] at hlength
      omega
    | false =>
      -- A text between two placeholders is not empty, so that it alone decides about the second.
      obtain ⟨-, hbetween, hseparate'⟩ := separate_cons.1 hseparate
      have hbefore' : more ≠ [] → endsInWord true next = endsInWord false next := fun hne =>
        endsInWord_of_ne (mt hbetween hne) true
      rw [if_neg Bool.false_ne_true, List.singleton_append, List.cons.injEq,
        List.append_right_eq_self, takeWhile_written,
        ih hmore hseparate' hbefore' (n + 1) hnext hrest, and_iff_right rfl]

theorem mem_escape {c : Char} {text : List Char} (h : c ∈ text) : c ∈ escape text := by
  induction text with
  | nil => cases h
  | cons d text ih =>
    rw [escape]
    rcases List.mem_cons.1 h with rfl | hmem
    · split
      · rename_i hmark
        rw [hmark]
        exact List.mem_cons_self
      · exact List.mem_cons_self
    · have hrest := ih hmem
      split
      · exact List.mem_cons_of_mem _ (List.mem_cons_of_mem _ hrest)
      · exact List.mem_cons_of_mem _ hrest

/-- The characters of the texts are those of the template. -/
theorem mem_encode {c : Char} {t text : List Char} {more : List (List Char)}
    (ht : t ∈ text :: more) (hc : c ∈ t) : c ∈ encode text more := by
  induction more generalizing text with
  | nil =>
    obtain rfl := List.mem_singleton.1 ht
    exact mem_escape hc
  | cons next more ih =>
    rw [encode, List.mem_append]
    rcases List.mem_cons.1 ht with rfl | hmore
    · exact .inl (mem_escape hc)
    · exact .inr (List.mem_cons_of_mem _ (ih hmore))

end Template

namespace Predicate

open Template
open Piece (numbers)

/-- A template without `$` that has a value for each placeholder binds them in order. The
parameters that are read off its text are those of its values exactly if no text of it touches a
placeholder. -/
theorem template_parameters (sql : String) (values : List α) (h : '$' ∉ sql.toList)
    (harity : placeholders sql.toList = values.length) :
    ∃ phrase, ((∅ : Predicate α).template sql values).compile = .ok phrase ∧
      phrase.query.values = values ∧
      (tokens false phrase.query.sql.toList = numbers 0 values.length ↔
        Free (Template.read sql.toList).1 (Template.read sql.toList).2) := by
  obtain ⟨phrase, hcompile, hquery⟩ := compile_filled (p := (∅ : Predicate α)) rfl harity
  replace hquery := hquery rfl
  refine ⟨phrase, hcompile, by rw [hquery], ?_⟩
  obtain ⟨hencode, hseparate⟩ := encode_read sql.toList
  have htexts : ∀ t ∈ (Template.read sql.toList).1 :: (Template.read sql.toList).2, '$' ∉ t := by
    intro t ht hmem
    have hsql := mem_encode ht hmem
    rw [hencode] at hsql
    exact h hsql
  rw [hquery, String.toList_ofList, ← harity]
  exact tokens_written_iff htexts hseparate (fun _ => rfl) 0

/-- A template whose placeholders stand free. -/
def likeTemplate : String := "rating = ? AND title LIKE ?"

theorem template_parameters_like :
    ∃ phrase, ((∅ : Predicate Nat).template likeTemplate [7, 8]).compile = .ok phrase ∧
      tokens false phrase.query.sql.toList = [['1'], ['2']] := by
  have hdollar : '$' ∉ likeTemplate.toList := by decide +kernel
  have harity : placeholders likeTemplate.toList = 2 := by decide +kernel
  have hfree : Free (Template.read likeTemplate.toList).1 (Template.read likeTemplate.toList).2 :=
    ⟨by decide +kernel, by decide +kernel⟩
  obtain ⟨phrase, hcompile, -, hparameters⟩ :=
    template_parameters likeTemplate [7, 8] hdollar harity
  exact ⟨phrase, hcompile, hparameters.2 hfree⟩

/-- A template whose placeholder stands directly behind a word. -/
def fusedTemplate : String := "title LIKE?"

/-- Not every template without `$` and quotes is written with the parameters of its values. -/
theorem template_fused : ¬ ∀ (sql : String) (values : List Nat) (phrase : Phrase Nat),
    '$' ∉ sql.toList → '"' ∉ sql.toList → '\'' ∉ sql.toList →
      placeholders sql.toList = values.length →
        ((∅ : Predicate Nat).template sql values).compile = .ok phrase →
          tokens false phrase.query.sql.toList = numbers 0 values.length := by
  intro h
  have harity : placeholders fusedTemplate.toList = [7].length := by decide +kernel
  obtain ⟨phrase, hcompile, hquery⟩ :=
    compile_filled (p := (∅ : Predicate Nat)) rfl harity
  have hparameters := h fusedTemplate [7] phrase (by decide +kernel) (by decide +kernel)
    (by decide +kernel) harity hcompile
  rw [hquery rfl] at hparameters
  exact absurd hparameters (by decide +kernel)

end Predicate

end ParamSql
