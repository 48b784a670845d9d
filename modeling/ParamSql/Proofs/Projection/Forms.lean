import Mathlib.Data.List.TakeWhile
import ParamSql.Proofs.Identifier.Grammar
import ParamSql.Proofs.Select.Texts

/-!
# The written form of column list entries

An entry is a star, a name, or a name with a dot and a star behind it, and no text is two of these:
a name ends with a letter, a digit, `_`, `$` or a quote, so that a text that ends with a star is no
name, and a star inside quotes belongs to the name. Blanks around an entry do not count, and an
entry has none at its ends, so that reading is the inverse of writing.

Results:
* `Text.trim_eq_iff`: what is left of a text without the blanks around it.
* `IdentifierText.ends`: how names start and end.
* `Form.eq_of_admits`: no text has two forms.
* `parse_eq_ok_iff`: a text is read as an entry exactly if this is written so, up to blanks.
* `exists_parse_iff`: the texts that are read.
-/

namespace ParamSql

variable {α : Type}

open Text (isBlank trim)

/-! ## Blanks around a text -/

/-- A text and what is left of it without the blanks at its ends. -/
structure Trimmed (cs inner : List Char) : Prop where
  around : ∃ front back, (∀ c ∈ front, isBlank c = true) ∧ (∀ c ∈ back, isBlank c = true) ∧
    cs = front ++ (inner ++ back)
  start : ∀ c ∈ inner.head?, isBlank c = false
  stop : ∀ c ∈ inner.getLast?, isBlank c = false

namespace Text

/-- What is dropped from the start of a text, and what is left. -/
theorem exists_dropWhile (p : Char → Bool) (cs : List Char) :
    ∃ front, (∀ c ∈ front, p c = true) ∧ cs = front ++ cs.dropWhile p ∧
      ∀ c ∈ (cs.dropWhile p).head?, p c = false := by
  refine ⟨cs.takeWhile p, fun c hc => List.mem_takeWhile_imp hc,
    List.takeWhile_append_dropWhile.symm, fun c hc => ?_⟩
  have hnot := List.head?_dropWhile_not p cs
  rwa [Option.mem_def.1 hc] at hnot

theorem trimmed_trim (cs : List Char) : Trimmed cs (trim cs) := by
  obtain ⟨front, hfront, hcs, hstart⟩ := exists_dropWhile isBlank cs
  obtain ⟨back, hback, hrest, hstop⟩ := exists_dropWhile isBlank (cs.dropWhile isBlank).reverse
  have hinner : cs.dropWhile isBlank = trim cs ++ back.reverse := by
    rw [trim, ← List.reverse_append, ← hrest, List.reverse_reverse]
  refine ⟨⟨front, back.reverse, hfront, by simpa using hback, by rw [← hinner, ← hcs]⟩,
    fun c hc => hstart c ?_, fun c hc => hstop c ?_⟩
  · rw [hinner, List.head?_append, Option.mem_def.1 hc]
    rfl
  · rwa [trim, List.getLast?_reverse] at hc

/-- What is left without blanks is found by trimming. -/
theorem trim_eq_iff (cs inner : List Char) : trim cs = inner ↔ Trimmed cs inner := by
  constructor
  · rintro rfl
    exact trimmed_trim cs
  · rintro ⟨⟨front, back, hfront, hback, rfl⟩, hstart, hstop⟩
    rw [trim, List.dropWhile_append_of_pos hfront]
    cases hinner : inner with
    | nil =>
      rw [List.nil_append, List.dropWhile_eq_nil_iff.2 hback]
      rfl
    | cons c rest =>
      have hhead : ∀ d ∈ (inner ++ back).head?, isBlank d = false := by
        rw [List.head?_append_of_ne_nil _ (by simp [hinner])]
        exact hstart
      have hlast : ∀ d ∈ inner.reverse.head?, isBlank d = false := by
        rw [List.head?_reverse]
        exact hstop
      rw [← hinner, dropWhile_eq_self hhead, List.reverse_append,
        List.dropWhile_append_of_pos (by simpa using hback), dropWhile_eq_self hlast,
        List.reverse_reverse]

end Text

/-! ## The ends of names -/

/-- The characters that a name may start or end with. -/
def IsEnd (c : Char) : Prop := IsLetter c ∨ IsDigit c ∨ c = '_' ∨ c = '$' ∨ c = '"'

/-- The text starts and ends with such characters. -/
structure HasEnds (cs : List Char) : Prop where
  start : ∃ c, cs.head? = some c ∧ IsEnd c
  stop : ∃ c, cs.getLast? = some c ∧ IsEnd c

theorem SegmentText.ends {cs : List Char} (h : SegmentText cs) : HasEnds cs := by
  cases h with
  | @plain c rest hc hrest =>
    have hfirst : IsEnd c := hc.elim .inl fun hc => .inr (.inr (.inl hc))
    have hall : ∀ d ∈ c :: rest, IsEnd d := by
      refine List.forall_mem_cons.2 ⟨hfirst, fun d hd => ?_⟩
      rcases hrest d hd with hd | hd | hd | hd
      · exact .inl hd
      · exact .inr (.inl hd)
      · exact .inr (.inr (.inl hd))
      · exact .inr (.inr (.inr (.inl hd)))
    exact ⟨⟨c, rfl, hfirst⟩, _, List.getLast?_eq_some_getLast (List.cons_ne_nil c rest),
      hall _ (List.getLast_mem _)⟩
  | @quoted inner _ _ =>
    have hquote : IsEnd '"' := .inr (.inr (.inr (.inr rfl)))
    exact ⟨⟨'"', rfl, hquote⟩, '"', by simp [List.getLast?_cons], hquote⟩

theorem IdentifierText.ends {cs : List Char} (h : IdentifierText cs) : HasEnds cs := by
  induction h with
  | segment hs => exact hs.ends
  | dotted hs _ ih =>
    obtain ⟨c, hc, hfirst⟩ := hs.ends.start
    obtain ⟨d, hd, hlast⟩ := ih.stop
    refine ⟨⟨c, ?_, hfirst⟩, d, ?_, hlast⟩
    · rw [List.head?_append, hc]
      rfl
    · rw [List.getLast?_append, List.getLast?_cons, hd]
      rfl

theorem IsEnd.isBlank {c : Char} (h : IsEnd c) : isBlank c = false := by
  rcases h with h | h | rfl | rfl | rfl
  · rw [isLetter_iff] at h
    simp only [Text.isBlank, Bool.or_eq_false_iff, Bool.and_eq_false_iff, decide_eq_false_iff_not]
    omega
  · rw [isDigit_iff_toNat] at h
    simp only [Text.isBlank, Bool.or_eq_false_iff, Bool.and_eq_false_iff, decide_eq_false_iff_not]
    omega
  all_goals rfl

theorem IsEnd.ne_star {c : Char} (h : IsEnd c) : c ≠ '*' := by
  rintro rfl
  rcases h with h | h | h | h | h
  · rw [isLetter_iff] at h
    exact absurd h (by decide)
  · rw [isDigit_iff_toNat] at h
    exact absurd h (by decide)
  all_goals exact absurd h (by decide)

theorem HasEnds.start_isBlank {cs : List Char} (h : HasEnds cs) :
    ∀ c ∈ cs.head?, isBlank c = false := by
  obtain ⟨c, hc, hfirst⟩ := h.start
  rw [hc]
  rintro d ⟨⟩
  exact hfirst.isBlank

theorem HasEnds.stop_isBlank {cs : List Char} (h : HasEnds cs) :
    ∀ c ∈ cs.getLast?, isBlank c = false := by
  obtain ⟨c, hc, hlast⟩ := h.stop
  rw [hc]
  rintro d ⟨⟩
  exact hlast.isBlank

/-- A name does not end with a star. -/
theorem NameText.getLast?_ne_star {cs : List Char} (h : NameText cs) : cs.getLast? ≠ some '*' := by
  obtain ⟨c, hc, hlast⟩ := h.1.ends.stop
  rw [hc]
  exact fun hstar => hlast.ne_star (Option.some.inj hstar)

namespace Projection

/-! ## Forms of entries -/

/-- What an entry looks like. -/
inductive Form where
  | all
  | table
  | column

/-- The texts of a form. -/
def Form.Admits : Form → List Char → Prop
  | .all, cs => cs = ['*']
  | .table, cs => ∃ owner, NameText owner ∧ cs = owner ++ ['.', '*']
  | .column, cs => NameText cs

/-- All forms but names end with a star. -/
theorem Form.getLast?_of_admits {form : Form} {cs : List Char} (h : form.Admits cs)
    (hform : form ≠ .column) : cs.getLast? = some '*' := by
  cases form with
  | all =>
    obtain rfl : cs = ['*'] := h
    rfl
  | table =>
    obtain ⟨owner, -, rfl⟩ := h
    rw [List.getLast?_append]
    rfl
  | column => exact absurd rfl hform

/-- All columns of a table are not written as a star alone. -/
theorem Form.not_admits_star : ¬ Form.table.Admits ['*'] := by
  rintro ⟨owner, -, hstar⟩
  have hlength := congrArg List.length hstar
  simp at hlength

/-- No text has two forms. -/
theorem Form.eq_of_admits {form other : Form} {cs : List Char} (h : form.Admits cs)
    (h' : other.Admits cs) : form = other := by
  -- a text that ends with a star is no name, and then its length tells the other two apart
  cases form with
  | all =>
    obtain rfl : cs = ['*'] := h
    cases other with
    | all => rfl
    | table => exact absurd h' not_admits_star
    | column => exact absurd rfl (NameText.getLast?_ne_star h')
  | table =>
    cases other with
    | all =>
      obtain rfl : cs = ['*'] := h'
      exact absurd h not_admits_star
    | table => rfl
    | column => exact absurd (getLast?_of_admits h nofun) (NameText.getLast?_ne_star h')
  | column =>
    by_contra hne
    exact NameText.getLast?_ne_star h (getLast?_of_admits h' (Ne.symm hne))

/-- The form of an entry. -/
def form : Projection → Form
  | .column _ => .column
  | .table _ => .table
  | .all => .all

theorem admits_form (entry : Projection) : entry.form.Admits entry.text.toList := by
  cases entry with
  | column x => exact x.nameText_sql
  | table x => exact ⟨x.sql.toList, x.nameText_sql, String.toList_append⟩
  | all => rfl

theorem exists_of_admits {form : Form} {cs : List Char} (h : form.Admits cs) :
    ∃ entry : Projection, entry.text.toList = cs := by
  cases form with
  | all => exact ⟨.all, h.symm⟩
  | table =>
    obtain ⟨owner, howner, rfl⟩ := h
    obtain ⟨x, rfl⟩ := (Identifier.identifierText_iff owner).1 howner
    exact ⟨.table x, by rw [text, String.toList_append, x.toList_sql]; rfl⟩
  | column =>
    obtain ⟨x, rfl⟩ := (Identifier.identifierText_iff cs).1 h
    exact ⟨.column x, x.toList_sql⟩

/-! ## Reading what was written -/

/-- There are no blanks at the ends of an entry. -/
theorem trimmed_text (entry : Projection) : Trimmed entry.text.toList entry.text.toList := by
  refine ⟨⟨[], [], by simp, by simp, by simp⟩, ?_, ?_⟩
  · cases entry with
    | column x => exact x.nameText_sql.1.ends.start_isBlank
    | table x =>
      obtain ⟨c, hc, hfirst⟩ := x.nameText_sql.1.ends.start
      rw [text, String.toList_append, List.head?_append, hc]
      rintro d ⟨⟩
      exact hfirst.isBlank
    | all =>
      rintro d ⟨⟩
      rfl
  · cases entry with
    | column x => exact x.nameText_sql.1.ends.stop_isBlank
    | table x =>
      rw [text, String.toList_append, List.getLast?_append]
      rintro d ⟨⟩
      rfl
    | all =>
      rintro d ⟨⟩
      rfl

theorem stripWildcard?_append (owner : List Char) :
    stripWildcard? (owner ++ ['.', '*']) = some owner := by
  simp [stripWildcard?]

theorem eq_of_stripWildcard? {cs owner : List Char} (h : stripWildcard? cs = some owner) :
    cs = owner ++ ['.', '*'] := by
  unfold stripWildcard? at h
  split at h
  · rename_i rest hcs
    cases h
    rw [← List.reverse_reverse cs, hcs]
    simp
  · cases h

theorem stripWildcard?_eq_none {cs : List Char} (h : cs.getLast? ≠ some '*') :
    stripWildcard? cs = none := by
  cases hstrip : stripWildcard? cs with
  | none => rfl
  | some owner => exact absurd (by simp [eq_of_stripWildcard? hstrip]) h

/-- A text is read as an entry exactly if the entry is written so, up to blanks around it. -/
theorem parse_eq_ok_iff (input : String) (entry : Projection) :
    parse input = .ok entry ↔ trim input.toList = entry.text.toList := by
  unfold parse
  generalize trim input.toList = cs
  constructor
  · intro h
    dsimp only at h
    split at h
    · rename_i hstar
      cases h
      exact hstar
    · split at h
      · rename_i owner hstrip
        obtain ⟨x, hx, rfl⟩ := map_eq_ok_iff.1 h
        rw [eq_of_stripWildcard? hstrip, text, Identifier.sql_of_parse hx, String.toList_append,
          String.toList_ofList]
        rfl
      · obtain ⟨x, hx, rfl⟩ := map_eq_ok_iff.1 h
        rw [text, Identifier.sql_of_parse hx, String.toList_ofList]
  · rintro rfl
    cases entry with
    | column x =>
      have hlast := x.nameText_sql.getLast?_ne_star
      have hne : x.sql.toList ≠ ['*'] := fun hstar => hlast (by rw [hstar]; rfl)
      simp only [text, if_neg hne, stripWildcard?_eq_none hlast, String.ofList_toList,
        (Identifier.parse_eq_ok_iff x.sql x).2 rfl]
      rfl
    | table x =>
      have htext : (table x).text.toList = x.sql.toList ++ ['.', '*'] := String.toList_append
      have hne : x.sql.toList ++ ['.', '*'] ≠ ['*'] :=
        fun hstar => Form.not_admits_star ⟨_, x.nameText_sql, hstar.symm⟩
      simp only [htext, if_neg hne, stripWildcard?_append, String.ofList_toList,
        (Identifier.parse_eq_ok_iff x.sql x).2 rfl]
      rfl
    | all => rfl

/-- Every entry is read as it is written. -/
theorem parse_text (entry : Projection) : parse entry.text = .ok entry := by
  rw [parse_eq_ok_iff, Text.trim_eq_iff]
  exact trimmed_text entry

/-- The texts that are read are those of the three forms, with blanks around them. -/
theorem exists_parse_iff (input : String) : (∃ entry, parse input = .ok entry) ↔
    ∃ inner, Trimmed input.toList inner ∧ ∃ form : Form, form.Admits inner := by
  simp only [parse_eq_ok_iff, Text.trim_eq_iff]
  constructor
  · rintro ⟨entry, h⟩
    exact ⟨_, h, _, admits_form entry⟩
  · rintro ⟨inner, h, form, hform⟩
    obtain ⟨entry, rfl⟩ := exists_of_admits hform
    exact ⟨entry, h⟩

end Projection

end ParamSql
