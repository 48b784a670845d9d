import ParamSql.Proofs.Phrase.Pieces

/-!
# The text of a phrase

A phrase is written as its items are, those without text left out and a separator between the
others. So a sequence in a sequence with the same separator is written as one sequence of all their
items, and every clause of a statement stands behind a single separator.

Results:
* `Text.joined_cons`, `Text.joined_nested`: texts with a separator, and sequences of sequences.
* `Phrase.text_seq`: the text of a sequence from the texts of its items.
* `Phrase.query_text`: the text of a query.
* `Phrase.text_values`: values in a list are written as their placeholders.
-/

namespace ParamSql

variable {α β : Type}

/-! ## Texts with a separator -/

namespace Text

/-- The texts that are not empty, with a separator between them. -/
def joined (separator : String) (texts : List String) : String :=
  separator.intercalate (texts.filter (· ≠ ""))

/-- The texts that are not empty, each behind a separator. -/
def behind (separator : String) : List String → String
  | [] => ""
  | t :: rest => if t = "" then behind separator rest else separator ++ t ++ behind separator rest

/-- A text behind a keyword, or nothing if it is empty. -/
def led (keyword body : String) : String := if body = "" then "" else keyword ++ body

variable {separator : String}

theorem behind_append (first second : List String) :
    behind separator (first ++ second) = behind separator first ++ behind separator second := by
  induction first with
  | nil => exact String.empty_append.symm
  | cons t rest ih =>
    rw [List.cons_append, behind, behind, ih]
    split
    · rfl
    · rw [← String.append_assoc]

theorem behind_cons {t : String} (h : t ≠ "") (rest : List String) :
    behind separator (t :: rest) = separator ++ t ++ behind separator rest := by
  rw [behind, if_neg h]

theorem joined_of_ne {texts : List String} (h : ∀ t ∈ texts, t ≠ "") :
    joined separator texts = separator.intercalate texts := by
  rw [joined, List.filter_eq_self.2 fun t ht => decide_eq_true (h t ht)]

theorem joined_cons_empty (rest : List String) :
    joined separator ("" :: rest) = joined separator rest := by
  rw [joined, List.filter_cons_of_neg (by simp)]
  rfl

/-- An empty text is left out wherever it stands. -/
theorem joined_skip (first rest : List String) :
    joined separator (first ++ "" :: rest) = joined separator (first ++ rest) := by
  simp [joined, List.filter_append]

/-- Behind a first text that is not empty, every further one stands behind the separator. -/
theorem joined_cons {t : String} (h : t ≠ "") (rest : List String) :
    joined separator (t :: rest) = t ++ behind separator rest := by
  -- An empty second text is skipped, any other one takes the place of the first.
  induction rest generalizing t with
  | nil =>
    rw [joined_of_ne (by simpa using h), String.intercalate_singleton]
    exact String.append_empty.symm
  | cons u rest ih =>
    by_cases hu : u = ""
    · have hskip : joined separator (t :: u :: rest) = joined separator (t :: rest) := by
        simp [joined, List.filter_cons, hu]
      rw [hskip, ih h, behind, if_pos hu]
    · have hfirst : joined separator (t :: u :: rest) =
          t ++ separator ++ joined separator (u :: rest) := by
        simp [joined, h, hu]
      rw [hfirst, ih hu, behind_cons hu, String.append_assoc, String.append_assoc]

theorem joined_ne_empty {t : String} (h : t ≠ "") (rest : List String) :
    joined separator (t :: rest) ≠ "" := by
  rw [joined_cons h]
  exact fun e => h (String.append_eq_empty_iff.1 e).1

/-- A sequence at the end of another one. -/
theorem behind_joined (texts : List String) :
    behind separator [joined separator texts] = behind separator texts := by
  induction texts with
  | nil => rfl
  | cons t rest ih =>
    by_cases h : t = ""
    · rw [h, joined_cons_empty, ih, behind, if_pos rfl]
    · rw [behind_cons (joined_ne_empty h rest), joined_cons h, behind_cons h, behind,
        String.append_empty, String.append_assoc]

/-- A sequence in a sequence is written as one sequence of all items. -/
theorem joined_nested {t : String} (h : t ≠ "") (first inner rest : List String) :
    joined separator (t :: (first ++ joined separator inner :: rest)) =
      joined separator (t :: (first ++ inner ++ rest)) := by
  rw [joined_cons h, joined_cons h, ← List.singleton_append, ← List.append_assoc, behind_append,
    behind_append, behind_joined, behind_append, behind_append]

/-- Two texts with the separator between them are written as one. -/
theorem joined_pair {t u : String} (ht : t ≠ "") (hu : u ≠ "") (rest : List String) :
    joined separator (t :: u :: rest) = joined separator ((t ++ separator ++ u) :: rest) := by
  have hpair : t ++ separator ++ u ≠ "" := fun e => hu (String.append_eq_empty_iff.1 e).2
  rw [joined_cons ht, behind_cons hu, joined_cons hpair]
  simp only [String.append_assoc]

end Text

/-! ## Texts of phrases -/

theorem Identifier.sql_ne_empty (x : Identifier) : x.sql ≠ "" := by
  simpa [sql] using x.chars_ne_nil

namespace Phrase

/-- The text of a phrase; `n` values are bound before it. -/
def text (n : Nat) (p : Phrase α) : String := String.ofList (p.chars n)

/-- The texts of phrases, one after the other. -/
def texts : Nat → List (Phrase α) → List String
  | _, [] => []
  | n, p :: rest => p.text n :: texts (n + p.values.length) rest

/-- A query is the text of its phrase with nothing bound before it. -/
theorem query_text (p : Phrase α) : p.query = ⟨p.text 0, p.values⟩ := p.query_eq

theorem text_eq_empty_iff (n : Nat) (p : Phrase α) : p.text n = "" ↔ p.isEmpty = true := by
  rw [text, ← chars_eq_nil_iff n p, String.ofList_eq_empty_iff]

@[simp] theorem text_keyword (n : Nat) (word : String) :
    (keyword word : Phrase α).text n = word := by
  rw [text, chars, spell, pieces, Piece.chars_ofKeyword, String.ofList_toList]

@[simp] theorem text_raw (n : Nat) (sql : String) : (raw sql : Phrase α).text n = sql := by
  rw [text, chars, spell, pieces, Piece.chars_ofRaw, String.ofList_toList]

@[simp] theorem text_name (n : Nat) (x : Identifier) : (name x : Phrase α).text n = x.sql := by
  rw [text, chars, spell, pieces, Piece.spell_singleton]
  rfl

@[simp] theorem text_value (n : Nat) (v : α) :
    (value v : Phrase α).text n = "$" ++ toString (n + 1) := by
  rw [text, chars, spell, pieces, Piece.spell_singleton, Piece.chars, String.ofList_cons,
    Nat.toString_eq_ofList_toDigits]
  rfl

theorem text_of_pieces {n : Nat} {p q r : Phrase α} (h : p.pieces = q.pieces ++ r.pieces) :
    p.text n = q.text n ++ r.text (n + q.values.length) := by
  rw [text, chars, spell, h, Piece.spell_append, String.ofList_append]
  rfl

@[simp] theorem text_concat_nil (n : Nat) : (concat [] : Phrase α).text n = "" := rfl

@[simp] theorem text_concat_cons (n : Nat) (p : Phrase α) (rest : List (Phrase α)) :
    (concat (p :: rest)).text n = p.text n ++ (concat rest).text (n + p.values.length) := by
  refine text_of_pieces ?_
  rw [pieces_concat, pieces_concat, List.flatMap_cons]

theorem text_ledBy (n : Nat) (word : String) (p : Phrase α) :
    (ledBy word p).text n = Text.led word (p.text n) := by
  cases h : p.isEmpty with
  | true =>
    rw [ledBy, if_pos h, (text_eq_empty_iff n p).2 h]
    rfl
  | false =>
    have hpieces : (ledBy word p).pieces = (keyword word : Phrase α).pieces ++ p.pieces := by
      rw [pieces_ledBy, h]
      rfl
    rw [text_of_pieces hpieces, text_keyword, values_keyword, Text.led, if_neg]
    · rfl
    · rw [text_eq_empty_iff, h]
      exact Bool.false_ne_true

/-- Items behind a separator. -/
theorem text_behind (n : Nat) (separator : String) (items : List (Phrase α)) :
    (concat (items.map (ledBy separator))).text n = Text.behind separator (texts n items) := by
  induction items generalizing n with
  | nil => rfl
  | cons p rest ih =>
    rw [List.map_cons, text_concat_cons, ih, text_ledBy, values_ledBy, texts, Text.behind, Text.led]
    split
    · exact String.empty_append
    · rfl

/-- A sequence is written as its items with text, with the separator between them. -/
theorem text_seq (n : Nat) (separator : String) (items : List (Phrase α)) :
    (seq separator items).text n = Text.joined separator (texts n items) := by
  induction items generalizing n with
  | nil => rfl
  | cons p rest ih =>
    rw [texts]
    cases h : p.isEmpty with
    | true =>
      have hpieces : (seq separator (p :: rest)).pieces = (seq separator rest).pieces := by
        rw [pieces_seq, List.filter_cons_of_neg (by simp [h]), ← pieces_seq]
      rw [(text_eq_empty_iff n p).2 h, Text.joined_cons_empty, values_of_isEmpty h, ← ih, text,
        chars, spell, hpieces]
      rfl
    | false =>
      rw [Text.joined_cons (mt (text_eq_empty_iff n p).1 (by simp [h])), ← text_behind]
      refine text_of_pieces ?_
      rw [pieces_seq_cons separator h, pieces_concat, List.flatMap_map]

/-! ## Groups and lists of values -/

theorem text_parens (n : Nat) (p : Phrase α) : (parens p).text n = "(" ++ p.text n ++ ")" := by
  simp [parens, values_keyword, String.append_assoc]

/-- The placeholders of `count` values in a list; `n` values are bound before them. -/
def placeholders (n count : Nat) : String :=
  ", ".intercalate ((List.range' (n + 1) count).map fun number => "$" ++ toString number)

theorem texts_values (n : Nat) (values : List α) : texts n (values.map value) =
    (List.range' (n + 1) values.length).map fun number => "$" ++ toString number := by
  induction values generalizing n with
  | nil => rfl
  | cons v rest ih =>
    have hlength : (value v : Phrase α).values.length = 1 := rfl
    rw [List.map_cons, texts, text_value, hlength, ih, List.length_cons, List.range'_succ,
      List.map_cons]

theorem text_values (n : Nat) (values : List α) :
    (listed (values.map value)).text n = placeholders n values.length := by
  rw [listed, text_seq, texts_values, Text.joined_of_ne, placeholders]
  exact List.forall_mem_map.2 fun number _ => by simp

end Phrase

end ParamSql
