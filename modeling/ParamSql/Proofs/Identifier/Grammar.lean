import Mathlib.Logic.Function.Basic
import ParamSql.Identifier.Parser

/-!
# The written form of identifiers

What can be read as an identifier is given by a grammar of its own: segments with dots between them,
each of them a name of ASCII letters, digits, `_` and `$`, or a text in quotes with every quote
inside doubled. Every identifier is written in this form, and reading is the inverse of writing, so
that no two identifiers are written alike.

Results:
* `Segment.isStart_iff`, `Segment.isPart_iff`: the characters of names.
* `readSegments_dotted`: segments are read as they were written.
* `identifierText_iff`: the texts of the grammar are what identifiers are written as.
* `parse_eq_ok_iff`: a text is read as an identifier exactly if this is written so.
* `exists_parse_iff`: the texts that are read are those of names.
* `parse_roundTrip`: the grammar, both directions of the round trip, and quoted names.
-/

namespace ParamSql

/-! ## The grammar -/

/-- The ASCII letters. -/
def IsLetter (c : Char) : Prop := 'A' ≤ c ∧ c ≤ 'Z' ∨ 'a' ≤ c ∧ c ≤ 'z'

/-- The ASCII digits. -/
def IsDigit (c : Char) : Prop := '0' ≤ c ∧ c ≤ '9'

theorem isAlpha_iff (c : Char) : c.isAlpha = true ↔ IsLetter c := by
  have hranges : c.isAlpha = (decide ('A'.val ≤ c.val ∧ c.val ≤ 'Z'.val) ||
      (decide ('a'.val ≤ c.val) && decide (c.val ≤ 'z'.val))) := rfl
  simp only [hranges, IsLetter, Char.le_def, Bool.or_eq_true, Bool.and_eq_true, decide_eq_true_eq]

theorem isDigit_iff (c : Char) : c.isDigit = true ↔ IsDigit c := by
  have hrange : c.isDigit = (decide ('0'.val ≤ c.val) && decide (c.val ≤ '9'.val)) := rfl
  simp only [hrange, IsDigit, Char.le_def, Bool.and_eq_true, decide_eq_true_eq]

theorem isLetter_iff (c : Char) :
    IsLetter c ↔ 65 ≤ c.toNat ∧ c.toNat ≤ 90 ∨ 97 ≤ c.toNat ∧ c.toNat ≤ 122 := by
  simp only [IsLetter, Char.le_def, UInt32.le_iff_toNat_le]
  rfl

theorem isDigit_iff_toNat (c : Char) : IsDigit c ↔ 48 ≤ c.toNat ∧ c.toNat ≤ 57 := by
  simp only [IsDigit, Char.le_def, UInt32.le_iff_toNat_le]
  rfl

/-- A text in which quotes stand in pairs. -/
inductive QuotesDoubled : List Char → Prop where
  | nil : QuotesDoubled []
  | pair {rest : List Char} : QuotesDoubled rest → QuotesDoubled ('"' :: '"' :: rest)
  | other {c : Char} {rest : List Char} : c ≠ '"' → QuotesDoubled rest → QuotesDoubled (c :: rest)

/-- The text of one segment. -/
inductive SegmentText : List Char → Prop where
  | plain {c : Char} {rest : List Char} : IsLetter c ∨ c = '_' →
      (∀ d ∈ rest, IsLetter d ∨ IsDigit d ∨ d = '_' ∨ d = '$') → SegmentText (c :: rest)
  | quoted {inner : List Char} : inner ≠ [] → QuotesDoubled inner →
      SegmentText ('"' :: (inner ++ ['"']))

/-- Segments with dots between them. -/
inductive IdentifierText : List Char → Prop where
  | segment {cs : List Char} : SegmentText cs → IdentifierText cs
  | dotted {cs rest : List Char} : SegmentText cs → IdentifierText rest →
      IdentifierText (cs ++ '.' :: rest)

/-- The text of a name: one of the grammar, without NUL. -/
def NameText (cs : List Char) : Prop := IdentifierText cs ∧ '\x00' ∉ cs

/-! ## Segments -/

namespace Segment

theorem isStart_iff (c : Char) : isStart c = true ↔ IsLetter c ∨ c = '_' := by
  rw [isStart, Bool.or_eq_true, decide_eq_true_eq, isAlpha_iff]
  exact or_comm

theorem isPart_iff (c : Char) :
    isPart c = true ↔ IsLetter c ∨ IsDigit c ∨ c = '_' ∨ c = '$' := by
  have halphanum : c.isAlphanum = (c.isAlpha || c.isDigit) := rfl
  simp only [isPart, halphanum, Bool.or_eq_true, decide_eq_true_eq, isAlpha_iff, isDigit_iff]
  rw [or_comm, or_assoc]

theorem mem_double {c : Char} {cs : List Char} : c ∈ double cs ↔ c ∈ cs := by
  induction cs with
  | nil => rfl
  | cons d cs ih =>
    rw [double]
    split
    · rename_i h
      simp [ih, h]
    · simp [ih]

theorem quotesDoubled_double (name : List Char) : QuotesDoubled (double name) := by
  induction name with
  | nil => exact .nil
  | cons c name ih =>
    rw [double]
    split
    · exact .pair ih
    · rename_i hc
      exact .other hc ih

theorem exists_double {cs : List Char} (h : QuotesDoubled cs) : ∃ name, double name = cs := by
  induction h with
  | nil => exact ⟨[], rfl⟩
  | pair _ ih =>
    obtain ⟨name, rfl⟩ := ih
    exact ⟨'"' :: name, rfl⟩
  | @other c _ hc _ ih =>
    obtain ⟨name, rfl⟩ := ih
    exact ⟨c :: name, by rw [double, if_neg hc]⟩

/-- A segment is written in the form of the grammar, without NUL. -/
theorem segmentText_chars {s : Segment} (h : s.isValid = true) :
    SegmentText s.chars ∧ '\x00' ∉ s.chars := by
  cases s with
  | plain name =>
    rw [isValid_plain] at h
    rw [chars]
    refine ⟨?_, fun h0 => absurd (all_isPart h _ h0) (by decide)⟩
    cases hcs : name.toList with
    | nil => simp [hcs, isPlain] at h
    | cons c rest =>
      simp only [hcs, isPlain, Bool.and_eq_true, List.all_eq_true] at h
      exact .plain ((isStart_iff c).1 h.1) fun d hd => (isPart_iff d).1 (h.2 d hd)
  | quoted name =>
    obtain ⟨hne, h0⟩ := (isValid_quoted name).1 h
    refine ⟨.quoted ?_ (quotesDoubled_double _), by simpa [chars, mem_double] using h0⟩
    obtain ⟨c, hc⟩ := List.exists_mem_of_ne_nil _ hne
    exact List.ne_nil_of_mem (mem_double.2 hc)

theorem exists_segment {cs : List Char} (h : SegmentText cs) (h0 : '\x00' ∉ cs) :
    ∃ s : Segment, s.isValid = true ∧ s.chars = cs := by
  cases h with
  | @plain c rest hc hrest =>
    refine ⟨.plain (String.ofList (c :: rest)), ?_, String.toList_ofList⟩
    rw [isValid_plain, String.toList_ofList, isPlain, (isStart_iff c).2 hc, Bool.true_and,
      List.all_eq_true]
    exact fun d hd => (isPart_iff d).2 (hrest d hd)
  | @quoted inner hne hinner =>
    obtain ⟨name, rfl⟩ := exists_double hinner
    have hname : name ≠ [] := by
      rintro rfl
      exact hne rfl
    refine ⟨.quoted (String.ofList name), ?_, by simp [chars]⟩
    rw [isValid_quoted, String.toList_ofList]
    exact ⟨hname, fun hmem => h0 (by simp [mem_double, hmem])⟩

end Segment

namespace Identifier

open Segment (double dotted segmentText_chars exists_segment)

/-! ## Texts of the grammar -/

theorem identifierText_dotted {more : List Segment} (h : ∀ t ∈ more, t.isValid = true)
    {s : Segment} (hs : s.isValid = true) :
    IdentifierText (s.chars ++ dotted more) ∧ '\x00' ∉ s.chars ++ dotted more := by
  obtain ⟨htext, h0⟩ := segmentText_chars hs
  induction more generalizing s with
  | nil => simpa [dotted] using ⟨IdentifierText.segment htext, h0⟩
  | cons t more ih =>
    obtain ⟨ht, hmore⟩ := List.forall_mem_cons.1 h
    obtain ⟨htail, htail0⟩ := ih hmore ht (segmentText_chars ht).1 (segmentText_chars ht).2
    have hchars : dotted (t :: more) = '.' :: (t.chars ++ dotted more) := rfl
    rw [hchars]
    exact ⟨.dotted htext htail, by simpa [h0] using htail0⟩

theorem exists_identifier {cs : List Char} (h : IdentifierText cs) (h0 : '\x00' ∉ cs) :
    ∃ x : Identifier, x.chars = cs := by
  induction h with
  | segment hs =>
    obtain ⟨s, hvalid, rfl⟩ := exists_segment hs h0
    exact ⟨ofSegment s hvalid, chars_ofSegment s hvalid⟩
  | dotted hs _ ih =>
    obtain ⟨hs0, hrest0⟩ := not_or.1 (mt List.mem_append.2 h0)
    obtain ⟨s, hvalid, rfl⟩ := exists_segment hs hs0
    obtain ⟨x, rfl⟩ := ih (List.not_mem_of_not_mem_cons hrest0)
    exact ⟨⟨s, x.segments, List.forall_mem_cons.2 ⟨hvalid, x.valid⟩⟩, rfl⟩

/-- The texts of the grammar without NUL are what identifiers are written as. -/
theorem identifierText_iff (cs : List Char) :
    IdentifierText cs ∧ '\x00' ∉ cs ↔ ∃ x : Identifier, x.chars = cs := by
  constructor
  · rintro ⟨h, h0⟩
    exact exists_identifier h h0
  · rintro ⟨x, rfl⟩
    obtain ⟨hhead, htail⟩ := List.forall_mem_cons.1 x.valid
    exact identifierText_dotted htail hhead

theorem toList_sql (x : Identifier) : x.sql.toList = x.chars := String.toList_ofList

theorem nameText_sql (x : Identifier) : NameText x.sql.toList := by
  rw [toList_sql]
  exact (identifierText_iff x.chars).2 ⟨x, rfl⟩

/-! ## Reading what was written -/

section

variable {input : String} {rest : List Char} {more : List Segment}

theorem readPlain_append (h : readPlain input rest = .ok ([], more)) {name : List Char}
    (hname : ∀ c ∈ name, Segment.isPart c = true) :
    readPlain input (name ++ rest) = .ok (name, more) := by
  induction name with
  | nil => exact h
  | cons c name ih =>
    obtain ⟨hc, hrest⟩ := List.forall_mem_cons.1 hname
    have hdot : c ≠ '.' := by
      rintro rfl
      exact absurd hc (by decide)
    rw [List.cons_append, readPlain.eq_3 _ _ _ hdot, if_pos hc, ih hrest]

theorem readQuoted_double (h : readAfterQuote input rest = .ok more) (hrest : rest.head? ≠ some '"')
    (name : List Char) : readQuoted input (double name ++ '"' :: rest) = .ok (name, more) := by
  induction name with
  | nil =>
    rw [double, List.nil_append, readQuoted.eq_3, h]
    rintro cs rfl
    exact hrest rfl
  | cons c name ih =>
    rw [double]
    split
    · rename_i hc
      rw [List.cons_append, List.cons_append, readQuoted, ih, hc]
    · rename_i hc
      rw [List.cons_append, readQuoted.eq_4 _ _ _ (fun _ e => absurd e hc) hc, ih]

/-- A quoted name that is not empty is not closed at once. -/
theorem closesAtOnce_double {name : List Char} (h : name ≠ []) :
    closesAtOnce (double name ++ '"' :: rest) = false := by
  cases name with
  | nil => exact absurd rfl h
  | cons c name =>
    rw [double]
    split
    · rfl
    · rename_i hc
      simp [closesAtOnce, hc]

/-- One segment, with readers for what stands behind it. -/
theorem readSegments_chars (hplain : readPlain input rest = .ok ([], more))
    (hquoted : readAfterQuote input rest = .ok more) (hrest : rest.head? ≠ some '"') {s : Segment}
    (h : s.isValid = true) : readSegments input (s.chars ++ rest) = .ok (s, more) := by
  cases s with
  | plain name =>
    rw [Segment.isValid_plain] at h
    cases hcs : name.toList with
    | nil => simp [hcs, Segment.isPlain] at h
    | cons c cs =>
      simp only [hcs, Segment.isPlain, Bool.and_eq_true, List.all_eq_true] at h
      have hquote : c ≠ '"' := by
        rintro rfl
        exact absurd h.1 (by decide)
      have hdot : c ≠ '.' := by
        rintro rfl
        exact absurd h.1 (by decide)
      rw [Segment.chars, hcs, List.cons_append, readSegments.eq_3 _ _ _ hquote, if_neg hdot,
        if_pos h.1, readPlain_append hplain h.2]
      simp only [← hcs, String.ofList_toList]
  | quoted name =>
    obtain ⟨hne, -⟩ := (Segment.isValid_quoted name).1 h
    rw [Segment.chars, List.cons_append, List.append_assoc, List.singleton_append, readSegments,
      closesAtOnce_double hne, if_neg Bool.false_ne_true, readQuoted_double hquoted hrest]
    simp only [String.ofList_toList]

end

/-- Segments are read as they were written, and the readers inside them go on with the rest. -/
theorem readSegments_dotted (input : String) {more : List Segment}
    (h : ∀ t ∈ more, t.isValid = true) {s : Segment} (hs : s.isValid = true) :
    readSegments input (s.chars ++ dotted more) = .ok (s, more) := by
  induction more generalizing s with
  | nil => exact readSegments_chars rfl rfl (by simp [dotted]) hs
  | cons t more ih =>
    obtain ⟨ht, hmore⟩ := List.forall_mem_cons.1 h
    have hchars : dotted (t :: more) = '.' :: (t.chars ++ dotted more) := rfl
    rw [hchars]
    refine readSegments_chars ?_ ?_ (by simp) hs
    · rw [readPlain, ih hmore ht]
    · rw [readAfterQuote, ih hmore ht]

/-- A text is read as an identifier exactly if the identifier is written as this text. -/
theorem parse_eq_ok_iff (input : String) (x : Identifier) : parse input = .ok x ↔ x.sql = input := by
  refine ⟨sql_of_parse, ?_⟩
  rintro rfl
  obtain ⟨hhead, htail⟩ := List.forall_mem_cons.1 x.valid
  have hread : readSegments x.sql x.sql.toList = .ok (x.head, x.tail) := by
    rw [toList_sql]
    exact readSegments_dotted x.sql htail hhead
  have h0 : '\x00' ∉ x.sql.toList := x.nameText_sql.2
  have hne : x.sql.toList ≠ [] := by
    rw [toList_sql]
    exact x.chars_ne_nil
  simp only [parse, if_neg hne, dif_neg h0]
  split
  · rename_i head tail h
    obtain ⟨rfl, rfl⟩ := Prod.mk.inj (Except.ok.inj (hread.symm.trans h))
    rfl
  · rename_i fault h
    rw [hread] at h
    cases h

/-- The texts that are read are those of names. -/
theorem exists_parse_iff (input : String) :
    (∃ x, parse input = .ok x) ↔ NameText input.toList := by
  rw [NameText, identifierText_iff]
  refine exists_congr fun x => ?_
  rw [parse_eq_ok_iff, ← String.toList_inj, toList_sql]

/-- Exactly the texts of the grammar without NUL are read, reading is the inverse of writing, no two
identifiers are written alike, and a quoted name is kept as it is. -/
theorem parse_roundTrip :
    (∀ input : String, (∃ x, parse input = .ok x) ↔
        IdentifierText input.toList ∧ '\x00' ∉ input.toList) ∧
      (∀ (input : String) (x : Identifier), parse input = .ok x ↔ x.sql = input) ∧
      Function.Injective sql ∧
      ∀ name : String, name ≠ "" → '\x00' ∉ name.toList →
        ∃ x, quoted name = .ok x ∧ x.name = name := by
  refine ⟨exists_parse_iff, parse_eq_ok_iff, fun x y h => ?_, fun name hne h0 => ?_⟩
  · have hx := (parse_eq_ok_iff y.sql x).2 h
    have hy := (parse_eq_ok_iff y.sql y).2 rfl
    exact Except.ok.inj (hx.symm.trans hy)
  · have hlist : name.toList ≠ [] := by simpa using hne
    exact ⟨_, quoted_eq_ok hlist h0, rfl⟩

/-- A name with quotes at its ends and a dot. -/
def oddName : String := "\"a\".b\""

/-- That name behind a plain qualifier. -/
def oddIdentifier : Identifier := ⟨.plain "s_$1", [.quoted oddName], by decide⟩

/-- How it is written. -/
def oddText : String := "s_$1.\"\"\"a\"\".b\"\"\""

theorem roundTrip_oddIdentifier :
    (oddName ≠ "" ∧ '\x00' ∉ oddName.toList) ∧ IdentifierText oddText.toList ∧
      parse oddText = .ok oddIdentifier ∧
      ∃ x, quoted oddName = .ok x ∧ x.name = oddName ∧ x = oddIdentifier.last := by
  obtain ⟨hgrammar, hround, -, hquoted⟩ := parse_roundTrip
  have hname : oddName ≠ "" ∧ '\x00' ∉ oddName.toList := by decide
  have hparse : parse oddText = .ok oddIdentifier := (hround _ _).2 (by decide)
  obtain ⟨x, hx, hxname⟩ := hquoted oddName hname.1 hname.2
  have hlast : quoted oddName = .ok oddIdentifier.last := rfl
  exact ⟨hname, ((hgrammar oddText).1 ⟨_, hparse⟩).1, hparse, x, hx, hxname,
    Except.ok.inj (hx.symm.trans hlast)⟩

end Identifier

end ParamSql
