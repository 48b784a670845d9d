import Mathlib.Data.List.Infix
import ParamSql.Text.Hexadecimal
import ParamSql.Value

/-!
# Quoted texts can be read back

A text that is shown in quotes says which text it is, whatever is shown behind it: no two characters
are written alike, and the quote that ends a text is the first one that no backslash stands before.
So a list of texts that is bound as one value is shown in a form of its own as well.

Results:
* `ofHexDigits_toDigits`: hexadecimal digits stand for one number.
* `Quoted.escape_append_inj`, `Quoted.quoteChars_append_inj`: what is written is told apart from
  what stands behind it.
* `Quoted.isHidden_quoteChars`: all of what is shown can be seen.
* `Quoted.quote_injective`, `Value.shown_texts_inj`: what is shown of texts and of lists of texts.
-/

namespace ParamSql

namespace Text

/-- The number that hexadecimal digits stand for. -/
def ofHexDigits (digits : List Char) : Nat :=
  digits.foldl (fun n c => 16 * n + (hexDigit? c).getD 0) 0

theorem ofHexDigits_toDigits (n : Nat) : ofHexDigits (Nat.toDigits 16 n) = n := by
  induction n using Nat.strongRecOn with
  | ind n ih =>
    rw [Nat.toDigits_eq_if (by decide)]
    split
    · rename_i hn
      rw [ofHexDigits, List.foldl_cons, List.foldl_nil, hexDigit?_digitChar n hn]
      exact (Nat.zero_add _)
    · rename_i hn
      have hfront := ih (n / 16) (by omega)
      rw [ofHexDigits] at hfront ⊢
      rw [List.foldl_append, hfront, List.foldl_cons, List.foldl_nil,
        hexDigit?_digitChar _ (Nat.mod_lt n (by decide))]
      exact Nat.div_add_mod n 16

namespace Quoted

open Unprintable

/-! ## Escapes -/

/-- Characters with an escape of one letter, and the letter. -/
def letters : List (Char × Char) :=
  [('"', '"'), ('\\', '\\'), ('\t', 't'), ('\n', 'n'), ('\r', 'r'), ('\x00', '0')]

theorem letter_inj : ∀ p ∈ letters, ∀ q ∈ letters, p.2 = q.2 → p.1 = q.1 := by decide

theorem letter_ne_u : ∀ p ∈ letters, p.2 ≠ 'u' := by decide

/-- The ways in which a character is written. -/
inductive Escapes (c : Char) : List Char → Prop where
  | itself (hshown : isHidden c = false) (hquote : c ≠ '"') (hbackslash : c ≠ '\\') :
      Escapes c [c]
  | letter {d : Char} (h : (c, d) ∈ letters) : Escapes c ['\\', d]
  | code : Escapes c (codeEscape c)

theorem escapes_escape (c : Char) : Escapes c (escape c) := by
  unfold escape
  split
  case h_7 hquote hbackslash _ _ _ _ =>
    split
    · exact .code
    · rename_i hshown
      exact .itself (Bool.eq_false_iff.2 hshown) hquote hbackslash
  all_goals exact .letter (by decide)

theorem append_cons_inj {x : Char} {a b rest more : List Char} (ha : x ∉ a) (hb : x ∉ b)
    (h : a ++ x :: rest = b ++ x :: more) : a = b ∧ rest = more := by
  induction a generalizing b with
  | nil =>
    cases b with
    | nil => exact ⟨rfl, (List.cons.inj h).2⟩
    | cons d b => exact (hb (by rw [(List.cons.inj h).1]; exact List.mem_cons_self)).elim
  | cons c a ih =>
    cases b with
    | nil => exact (ha (by rw [← (List.cons.inj h).1]; exact List.mem_cons_self)).elim
    | cons d b =>
      obtain ⟨rfl, htail⟩ := List.cons.inj h
      obtain ⟨rfl, hrest⟩ := ih (List.not_mem_of_not_mem_cons ha) (List.not_mem_of_not_mem_cons hb)
        htail
      exact ⟨rfl, hrest⟩

/-- The digits of a code end at the brace behind them. -/
theorem codeEscape_append_inj {c d : Char} {rest more : List Char}
    (h : codeEscape c ++ rest = codeEscape d ++ more) : c = d ∧ rest = more := by
  have hbrace (n : Nat) : '\x7d' ∉ Nat.toDigits 16 n := by
    intro hmem
    obtain ⟨m, hm, hdigit⟩ := exists_of_mem_toDigits (by decide) hmem
    have hdigits : ∀ m < 16, '\x7d' ≠ m.digitChar := by decide
    exact hdigits m hm hdigit
  simp only [codeEscape, List.cons_append, List.cons.injEq, true_and, List.append_assoc,
    List.nil_append] at h
  obtain ⟨hdigits, hrest⟩ := append_cons_inj (hbrace c.toNat) (hbrace d.toNat) h
  have hcode := congrArg ofHexDigits hdigits
  rw [ofHexDigits_toDigits, ofHexDigits_toDigits] at hcode
  exact ⟨Char.toNat_inj.1 hcode, hrest⟩

/-- No two characters are written alike, whatever stands behind them. -/
theorem escape_append_inj {c d : Char} {rest more : List Char}
    (h : escape c ++ rest = escape d ++ more) : c = d ∧ rest = more := by
  have hc := escapes_escape c
  have hd := escapes_escape d
  generalize escape c = front at h hc
  generalize escape d = front' at h hd
  cases hc with
  | itself _ _ hc =>
    cases hd with
    | itself => exact List.cons.inj h
    | letter => exact (hc (List.cons.inj h).1).elim
    | code => exact (hc (List.cons.inj h).1).elim
  | letter hc =>
    cases hd with
    | itself _ _ hd => exact (hd (List.cons.inj h).1.symm).elim
    | letter hd =>
      obtain ⟨hletter, hrest⟩ := List.cons.inj (List.cons.inj h).2
      exact ⟨letter_inj _ hc _ hd hletter, hrest⟩
    | code => exact (letter_ne_u _ hc (List.cons.inj (List.cons.inj h).2).1).elim
  | code =>
    cases hd with
    | itself _ _ hd => exact (hd (List.cons.inj h).1.symm).elim
    | letter hd => exact (letter_ne_u _ hd (List.cons.inj (List.cons.inj h).2).1.symm).elim
    | code => exact codeEscape_append_inj h

theorem escape_append_ne (c : Char) (rest more : List Char) : escape c ++ rest ≠ '"' :: more := by
  have hc := escapes_escape c
  generalize escape c = front at hc
  intro h
  cases hc with
  | itself _ hquote => exact hquote (List.cons.inj h).1
  | letter => exact absurd (List.cons.inj h).1 (by decide)
  | code => exact absurd (List.cons.inj h).1 (by decide)

/-- Nothing that is hidden stands in an escape. -/
theorem isHidden_escape (c : Char) : ∀ d ∈ escape c, isHidden d = false := by
  have hletters : ∀ p ∈ letters, isHidden p.2 = false := by decide
  have hdigits : ∀ m < 16, isHidden m.digitChar = false := by decide
  have hc := escapes_escape c
  generalize escape c = front at hc
  cases hc with
  | itself hshown => exact List.forall_mem_singleton.2 hshown
  | letter h => exact List.forall_mem_cons.2 ⟨rfl, List.forall_mem_singleton.2 (hletters _ h)⟩
  | code =>
    refine List.forall_mem_cons.2 ⟨rfl, List.forall_mem_cons.2 ⟨rfl, List.forall_mem_cons.2
      ⟨rfl, List.forall_mem_append.2 ⟨fun d hd => ?_, List.forall_mem_singleton.2 rfl⟩⟩⟩⟩
    obtain ⟨m, hm, rfl⟩ := exists_of_mem_toDigits (by decide) hd
    exact hdigits m hm

/-! ## Texts -/

/-- A quoted text has no hidden character, so it is on one line and all of it is seen. -/
theorem isHidden_quoteChars (cs : List Char) : ∀ d ∈ quoteChars cs, isHidden d = false := by
  refine List.forall_mem_cons.2 ⟨rfl, List.forall_mem_append.2
    ⟨fun d hd => ?_, List.forall_mem_singleton.2 rfl⟩⟩
  obtain ⟨c, -, hd⟩ := List.mem_flatMap.1 hd
  exact isHidden_escape c d hd

/-- A quoted text is told apart from what stands behind it. -/
theorem quoteChars_append_inj {cs ds rest more : List Char} :
    quoteChars cs ++ rest = quoteChars ds ++ more ↔ cs = ds ∧ rest = more := by
  refine ⟨fun h => ?_, fun h => by rw [h.1, h.2]⟩
  have hinner : cs.flatMap escape ++ '"' :: rest = ds.flatMap escape ++ '"' :: more := by
    simpa [quoteChars] using h
  clear h
  induction cs generalizing ds with
  | nil =>
    cases ds with
    | nil => exact ⟨rfl, (List.cons.inj hinner).2⟩
    | cons d ds =>
      rw [List.flatMap_cons, List.append_assoc] at hinner
      exact (escape_append_ne d _ _ hinner.symm).elim
  | cons c cs ih =>
    cases ds with
    | nil =>
      rw [List.flatMap_cons, List.append_assoc] at hinner
      exact (escape_append_ne c _ _ hinner).elim
    | cons d ds =>
      rw [List.flatMap_cons, List.flatMap_cons, List.append_assoc, List.append_assoc] at hinner
      obtain ⟨rfl, htail⟩ := escape_append_inj hinner
      obtain ⟨rfl, hrest⟩ := ih htail
      exact ⟨rfl, hrest⟩

theorem quote_injective : Function.Injective quote := by
  intro s t h
  have hchars := String.ofList_injective h
  rw [← List.append_nil (quoteChars _), ← List.append_nil (quoteChars t.toList)] at hchars
  exact String.toList_inj.1 (quoteChars_append_inj.1 hchars).1

end Quoted

end Text

/-! ## Lists of texts -/

namespace Value

open Text.Quoted (quote quoteChars quoteChars_append_inj)

/-- The items of a list behind its first one, as they are shown. -/
def shownAfter (texts : List String) : List Char :=
  texts.flatMap fun s => ',' :: ' ' :: quoteChars s.toList

theorem toList_intercalate_quote (s : String) (texts : List String) :
    (", ".intercalate ((s :: texts).map quote)).toList =
      quoteChars s.toList ++ shownAfter texts := by
  induction texts generalizing s with
  | nil => simp [shownAfter, quote]
  | cons t texts ih =>
    have htail := ih t
    rw [List.map_cons] at htail
    rw [List.map_cons, List.map_cons, String.intercalate_cons_cons, String.toList_append,
      String.toList_append, htail, shownAfter, shownAfter, List.flatMap_cons, List.append_assoc]
    rw [quote, String.toList_ofList]
    rfl

theorem shownAfter_inj {texts more : List String}
    (h : shownAfter texts ++ [']'] = shownAfter more ++ [']']) : texts = more := by
  induction texts generalizing more with
  | nil =>
    cases more with
    | nil => rfl
    | cons t more => exact absurd (List.cons.inj h).1 (by decide)
  | cons s texts ih =>
    cases more with
    | nil => exact absurd (List.cons.inj h).1 (by decide)
    | cons t more =>
      rw [shownAfter, shownAfter, List.flatMap_cons, List.flatMap_cons, List.append_assoc,
        List.append_assoc] at h
      have hitems := (List.cons.inj (List.cons.inj h).2).2
      obtain ⟨hs, hrest⟩ := quoteChars_append_inj.1 hitems
      rw [String.toList_inj.1 hs, ih hrest]

/-- A list of texts shows which texts it has. -/
theorem shown_texts_inj {texts more : List String} :
    (list (texts.map .text)).shown = (list (more.map .text)).shown ↔ texts = more := by
  refine ⟨fun h => ?_, fun h => by rw [h]⟩
  have hshown (texts : List String) : (list (texts.map .text)).shown.toList =
      '[' :: ((", ".intercalate (texts.map quote)).toList ++ [']']) := by
    rw [shown, List.map_map]
    simp [Function.comp_def, Scalar.shown]
  have hinner := congrArg String.toList h
  rw [hshown, hshown] at hinner
  replace hinner := (List.cons.inj hinner).2
  cases texts with
  | nil =>
    cases more with
    | nil => rfl
    | cons t more =>
      rw [toList_intercalate_quote] at hinner
      exact absurd (List.cons.inj hinner).1 (by decide)
  | cons s texts =>
    cases more with
    | nil =>
      rw [toList_intercalate_quote] at hinner
      exact absurd (List.cons.inj hinner).1 (by decide)
    | cons t more =>
      rw [toList_intercalate_quote, toList_intercalate_quote, List.append_assoc,
        List.append_assoc] at hinner
      obtain ⟨hs, hrest⟩ := quoteChars_append_inj.1 hinner
      rw [String.toList_inj.1 hs, shownAfter_inj hrest]

end Value

end ParamSql
