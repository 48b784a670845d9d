import ParamSql.Proofs.Phrase.Text
import ParamSql.Proofs.Values.Predicate

/-!
# Templates with question marks of their own

Reading a template takes a doubled question mark for one of the text, and every other one for a
placeholder. So texts with their question marks doubled and a placeholder between each two of them
are read back as they were, provided that no placeholder touches a question mark on its right: no
text behind one begins with a question mark, and only the last may be empty. Every template is made
of such texts, in one way.

Results:
* `read_escape_append`: a text with its question marks doubled, whatever stands behind it.
* `counts_iff`: the number of placeholders, found from left to right.
* `read_eq_iff`: reading is the inverse of putting together.
* `text_filled`: a template with its values.
* `Predicate.template_filled`, `Predicate.template_refused`: what a template does to a predicate.
* `Predicate.template_reads`: all of it.
-/

namespace ParamSql

variable {α : Type}

namespace Template

/-! ## Putting templates together -/

/-- Writes every question mark twice. -/
def escape : List Char → List Char
  | [] => []
  | c :: rest => if c = '?' then '?' :: '?' :: escape rest else c :: escape rest

/-- The template with these texts, each but the first behind a placeholder. -/
def encode (text : List Char) : List (List Char) → List Char
  | [] => escape text
  | next :: more => escape text ++ '?' :: encode next more

/-- No placeholder touches a question mark on its right: a text behind one does not begin with a
question mark, and only the last text may be empty. -/
structure Separate (more : List (List Char)) : Prop where
  start : ∀ text ∈ more, text.head? ≠ some '?'
  between : ∀ text ∈ more.dropLast, text ≠ []

/-- What a reader finds from left to right: a doubled question mark is one of the text, and every
other one is a placeholder. -/
inductive Counts : List Char → Nat → Prop
  | nil : Counts [] 0
  | literal {rest : List Char} {n : Nat} : Counts rest n → Counts ('?' :: '?' :: rest) n
  | placeholder {rest : List Char} {n : Nat} :
    rest.head? ≠ some '?' → Counts rest n → Counts ('?' :: rest) (n + 1)
  | char {c : Char} {rest : List Char} {n : Nat} : c ≠ '?' → Counts rest n → Counts (c :: rest) n

/-! ## Reading from left to right -/

theorem read_literal (rest : List Char) :
    read ('?' :: '?' :: rest) = ('?' :: (read rest).1, (read rest).2) := rfl

theorem read_placeholder {rest : List Char} (h : rest.head? ≠ some '?') :
    read ('?' :: rest) = ([], (read rest).1 :: (read rest).2) := by
  have hnext : ∀ after, rest ≠ '?' :: after := by
    rintro after rfl
    exact h rfl
  rw [read]
  exact hnext

theorem read_char {c : Char} (h : c ≠ '?') (rest : List Char) :
    read (c :: rest) = (c :: (read rest).1, (read rest).2) := by
  rw [read]
  · intro after hc
    exact absurd hc h
  · exact h

theorem counts_read (cs : List Char) : Counts cs (read cs).2.length := by
  induction cs using read.induct with
  | case1 => exact .nil
  | case2 rest text more hread ih =>
    rw [read_literal]
    exact .literal ih
  | case3 rest hrest text more hread ih =>
    have hnext : rest.head? ≠ some '?' := by
      intro e
      cases rest with
      | nil => cases e
      | cons c rest => exact hrest rest (by rw [Option.some.inj e])
    rw [read_placeholder hnext]
    exact .placeholder hnext ih
  | case4 c rest hrest hc text more hread ih =>
    rw [read_char hc]
    exact .char hc ih

/-- A reader finds the placeholders, and no other number of them. -/
theorem counts_iff {cs : List Char} {n : Nat} : Counts cs n ↔ n = placeholders cs := by
  constructor
  · intro h
    induction h with
    | nil => rfl
    | literal _ ih => exact ih
    | placeholder hnext _ ih =>
      rw [placeholders, read_placeholder hnext, ih]
      rfl
    | char hc _ ih =>
      rw [placeholders, read_char hc, ih]
      rfl
  · rintro rfl
    exact counts_read cs

theorem read_escape_append (text rest : List Char) :
    read (escape text ++ rest) = (text ++ (read rest).1, (read rest).2) := by
  induction text with
  | nil => rfl
  | cons c text ih =>
    by_cases hc : c = '?'
    · rw [escape, if_pos hc, List.cons_append, List.cons_append, read_literal, ih, hc]
      rfl
    · rw [escape, if_neg hc, List.cons_append, read_char hc, ih]
      rfl

/-! ## Reading is the inverse of putting together -/

theorem encode_literal (text : List Char) (more : List (List Char)) :
    encode ('?' :: text) more = '?' :: '?' :: encode text more := by
  cases more <;> rfl

theorem encode_char {c : Char} (h : c ≠ '?') (text : List Char) (more : List (List Char)) :
    encode (c :: text) more = c :: encode text more := by
  cases more <;> rw [encode, escape, if_neg h] <;> rfl

theorem separate_cons {text : List Char} {more : List (List Char)} :
    Separate (text :: more) ↔
      text.head? ≠ some '?' ∧ (text = [] → more = []) ∧ Separate more := by
  constructor
  · intro h
    obtain ⟨hfirst, hstart⟩ := List.forall_mem_cons.1 h.start
    cases more with
    | nil => exact ⟨hfirst, fun _ => rfl, ⟨hstart, by simp⟩⟩
    | cons next more =>
      have hbetween := h.between
      rw [List.dropLast_cons_of_ne_nil (List.cons_ne_nil next more), List.forall_mem_cons]
        at hbetween
      exact ⟨hfirst, fun e => absurd e hbetween.1, ⟨hstart, hbetween.2⟩⟩
  · rintro ⟨hfirst, hbetween, hmore⟩
    refine ⟨List.forall_mem_cons.2 ⟨hfirst, hmore.start⟩, ?_⟩
    cases more with
    | nil => simp
    | cons next more =>
      rw [List.dropLast_cons_of_ne_nil (List.cons_ne_nil next more), List.forall_mem_cons]
      exact ⟨fun e => absurd (hbetween e) (List.cons_ne_nil next more), hmore.between⟩

/-- Texts do not begin with a question mark when put together exactly if the first one does not, and
no placeholder stands before it. -/
theorem head?_encode (text : List Char) (more : List (List Char)) :
    (encode text more).head? ≠ some '?' ↔ text.head? ≠ some '?' ∧ (text = [] → more = []) := by
  cases text with
  | nil => cases more <;> simp [encode, escape]
  | cons c text =>
    by_cases hc : c = '?'
    · rw [hc, encode_literal]
      simp
    · rw [encode_char hc]
      simp

/-- Texts that are put together are read back. -/
theorem read_encode {text : List Char} {more : List (List Char)} (h : Separate more) :
    read (encode text more) = (text, more) := by
  induction more generalizing text with
  | nil =>
    have hread := read_escape_append text []
    rw [List.append_nil] at hread
    rw [encode, hread, read, List.append_nil]
  | cons next more ih =>
    obtain ⟨hstart, hbetween, hmore⟩ := separate_cons.1 h
    have hnext : (encode next more).head? ≠ some '?' :=
      (head?_encode next more).2 ⟨hstart, hbetween⟩
    rw [encode, read_escape_append, read_placeholder hnext, ih hmore, List.append_nil]

/-- A template is put together from the texts that are read, which are separate. -/
theorem encode_read (cs : List Char) :
    encode (read cs).1 (read cs).2 = cs ∧ Separate (read cs).2 := by
  have hcounts := counts_read cs
  generalize (read cs).2.length = n at hcounts
  induction hcounts with
  | nil => exact ⟨rfl, by simp [read], by simp [read]⟩
  | literal _ ih =>
    obtain ⟨htext, hseparate⟩ := ih
    rw [read_literal]
    exact ⟨by rw [encode_literal, htext], hseparate⟩
  | @placeholder rest n hnext _ ih =>
    obtain ⟨htext, hseparate⟩ := ih
    -- What follows is the template that is put together again, so its texts begin as it does.
    have hstart : (encode (read rest).1 (read rest).2).head? ≠ some '?' := by
      rw [htext]
      exact hnext
    obtain ⟨hfirst, hbetween⟩ := (head?_encode _ _).1 hstart
    rw [read_placeholder hnext]
    refine ⟨?_, separate_cons.2 ⟨hfirst, hbetween, hseparate⟩⟩
    rw [encode, htext]
    rfl
  | char hc _ ih =>
    obtain ⟨htext, hseparate⟩ := ih
    rw [read_char hc]
    exact ⟨by rw [encode_char hc, htext], hseparate⟩

/-- Reading is the inverse of putting together. -/
theorem read_eq_iff {cs text : List Char} {more : List (List Char)} :
    read cs = (text, more) ↔ Separate more ∧ cs = encode text more := by
  obtain ⟨htext, hseparate⟩ := encode_read cs
  constructor
  · intro h
    rw [h] at htext hseparate
    exact ⟨hseparate, htext.symm⟩
  · rintro ⟨hmore, rfl⟩
    exact read_encode hmore

/-! ## The template with its values -/

/-- The texts with placeholders between them; `n` values are bound before them. -/
def written : Nat → List Char → List (List Char) → List Char
  | _, text, [] => text
  | n, text, next :: more => text ++ '$' :: (Nat.toDigits 10 (n + 1) ++ written (n + 1) next more)

theorem text_filled {text : List Char} {more : List (List Char)} {values : List α}
    (h : more.length = values.length) (n : Nat) :
    (Phrase.concat (.raw (String.ofList text) :: fill values more)).text n =
      String.ofList (written n text more) := by
  induction more generalizing n text values with
  | nil =>
    obtain rfl : values = [] := List.length_eq_zero_iff.1 h.symm
    rw [Phrase.text_concat_cons, Phrase.text_raw, fill, Phrase.text_concat_nil, written,
      String.append_empty]
    simp
  | cons next more ih =>
    cases values with
    | nil => cases h
    | cons v values =>
      have hraw : (Phrase.raw (String.ofList text) : Phrase α).values.length = 0 := by
        rw [Phrase.values_raw, List.length_nil]
      have hvalue : (Phrase.value v).values.length = 1 := rfl
      rw [Phrase.text_concat_cons, Phrase.text_raw, hraw, Nat.add_zero, fill,
        Phrase.text_concat_cons, Phrase.text_value, hvalue, ih (Nat.succ.inj h), written,
        String.ofList_append, String.ofList_cons, String.ofList_append,
        ← Nat.toString_eq_ofList_toDigits, String.append_assoc]
      rfl

end Template

/-! ## The predicate -/

namespace Joined

/-- Conditions that are written one after the other have text if the first one has. -/
theorem exists_foldl_add {j : Joined α} (h : j.phrase.isEmpty = false)
    (conditions : List (Junction × Phrase α)) :
    ∃ j', conditions.foldl add (some j) = some j' ∧ j'.phrase.isEmpty = false := by
  induction conditions generalizing j with
  | nil => exact ⟨j, rfl, h⟩
  | cons condition rest ih =>
    have hoperand : j.operand.isEmpty = false := by
      unfold operand
      split
      · rfl
      · exact h
    obtain ⟨junction, next⟩ := condition
    cases junction with
    | and => exact ih (by simp [Phrase.isEmpty_seq, hoperand])
    | or => exact ih (by simp [Phrase.isEmpty_seq, h])

/-- A condition behind others without text is written as it is alone. -/
theorem phraseOf_append {conditions : List (Junction × Phrase α)}
    (h : (phraseOf conditions).isEmpty = true) (more : List (Junction × Phrase α)) :
    phraseOf (conditions ++ more) = phraseOf more := by
  have hnone : conditions.filter (fun c => !c.2.isEmpty) = [] := by
    cases hfilter : conditions.filter (fun c => !c.2.isEmpty) with
    | nil => rfl
    | cons first rest =>
      have hmem : first ∈ conditions.filter (fun c => !c.2.isEmpty) := by
        rw [hfilter]
        exact List.mem_cons_self
      have hfirst : first.2.isEmpty = false := by simpa using (List.mem_filter.1 hmem).2
      -- One condition with text would give text to all of them.
      obtain ⟨j, hj, hsome⟩ := exists_foldl_add (j := ⟨first.2, false⟩) hfirst rest
      have hadded : List.foldl add none (first :: rest) = some j := hj
      rw [phraseOf, hfilter, hadded] at h
      rw [hsome] at h
      cases h
  rw [phraseOf, phraseOf, List.filter_append, hnone, List.nil_append]

end Joined

namespace Predicate

open Template

/-- A condition that is added to a predicate without text is written as it is. -/
theorem query_add {p : Predicate α} (h : p.isEmpty = true) (phrase : Phrase α) :
    (p.add .and (.raw phrase)).phrase.query = phrase.query := by
  have hadd : (p.add .and (.raw phrase)).phrase = Joined.phraseOf [(.and, phrase)] := by
    rw [Predicate.phrase, add, Condition.phrases_append]
    exact Joined.phraseOf_append h _
  cases hempty : phrase.isEmpty with
  | true =>
    have hnothing : phrase.query = ⟨"", []⟩ := by
      rw [Phrase.query_text, (Phrase.text_eq_empty_iff 0 phrase).2 hempty,
        Phrase.values_of_isEmpty hempty]
    have hnone : Joined.phraseOf [(.and, phrase)] = .empty := by simp [Joined.phraseOf, hempty]
    rw [hadd, hnone, hnothing, Phrase.empty, Phrase.query_keyword]
  | false =>
    have hone : Joined.phraseOf [(.and, phrase)] = phrase := by
      simp [Joined.phraseOf, hempty, Joined.add]
    rw [hadd, hone]

/-- A template with a value for each placeholder adds one condition, which binds the values. -/
theorem template_filled (p : Predicate α) {sql : String} {values : List α}
    (h : placeholders sql.toList = values.length) : ∃ phrase,
      p.template sql values = p.add .and (.raw phrase) ∧ phrase.query =
        ⟨String.ofList (written 0 (Template.read sql.toList).1 (Template.read sql.toList).2),
          values⟩ := by
  have hphrase := phrase?_eq_some_iff.2 ⟨h, rfl⟩
  refine ⟨_, by rw [template, hphrase]; rfl, ?_⟩
  rw [Phrase.query_text, text_filled h, values_phrase? hphrase]

/-- A template with another number of values adds nothing, and its fault is recorded. -/
theorem template_refused (p : Predicate α) {sql : String} {values : List α}
    (h : placeholders sql.toList ≠ values.length) : p.template sql values =
      p.record (.templateArity sql (placeholders sql.toList) values.length) := by
  rw [template, (phrase?_eq_none_iff sql values).2 h]
  rfl

/-- A refused template is what its predicate is refused for, unless there is an earlier fault. -/
theorem compile_refused {p : Predicate α} (hfault : p.fault = none) {sql : String}
    {values : List α} (h : placeholders sql.toList ≠ values.length) :
    (p.template sql values).compile =
      .error (.recorded (.templateArity sql (placeholders sql.toList) values.length)) := by
  rw [p.template_refused h, compile, record, hfault]
  rfl

/-- A filled template can be compiled, and is written as it is if nothing stands before it. -/
theorem compile_filled {p : Predicate α} (hfault : p.fault = none) {sql : String}
    {values : List α} (h : placeholders sql.toList = values.length) :
    ∃ phrase, (p.template sql values).compile = .ok phrase ∧ (p.isEmpty = true → phrase.query =
      ⟨String.ofList (written 0 (Template.read sql.toList).1 (Template.read sql.toList).2),
        values⟩) := by
  obtain ⟨phrase, hadd, hquery⟩ := p.template_filled h
  have hcompile := (compile_eq_ok_iff (p.add .and (.raw phrase)) _).2 ⟨hfault, rfl⟩
  rw [hadd]
  exact ⟨_, hcompile, fun hempty => (query_add hempty phrase).trans hquery⟩

/-- Separate texts with their question marks doubled, and with a placeholder between each two of
them, are a template that is written as these texts with the numbers of its values between them. Any
template is refused exactly if its reader finds another number of placeholders than there are
values; it then adds no condition and binds nothing, and both numbers are reported. -/
theorem template_reads :
    (∀ (p : Predicate α) (text : List Char) (more : List (List Char)) (values : List α),
      p.fault = none → Separate more → more.length = values.length →
        ∃ phrase, (p.template (String.ofList (encode text more)) values).compile = .ok phrase ∧
          (p.isEmpty = true → phrase.query = ⟨String.ofList (written 0 text more), values⟩)) ∧
    ∀ (p : Predicate α) (sql : String) (values : List α), ∃ n, (∀ m, Counts sql.toList m ↔ m = n) ∧
      (n = values.length → ∃ phrase, p.template sql values = p.add .and (.raw phrase) ∧
        phrase.query.values = values) ∧
      (n ≠ values.length → (p.template sql values).conditions = p.conditions ∧
        (p.template sql values).fault =
          p.fault.or (some (.templateArity sql n values.length))) ∧
      (p.fault = none → n ≠ values.length →
        ∃ cause, (p.template sql values).compile = .error cause ∧
          cause.message = "template " ++ Text.Quoted.quote sql ++ " has " ++ toString n ++
            " placeholder(s) but " ++ toString values.length ++ " value(s) were given") ∧
      (p.fault = none →
        ((∃ phrase, (p.template sql values).compile = .ok phrase) ↔ n = values.length)) := by
  constructor
  · intro p text more values hfault hseparate hlength
    have hread : Template.read (String.ofList (encode text more)).toList = (text, more) := by
      rw [String.toList_ofList]
      exact read_eq_iff.2 ⟨hseparate, rfl⟩
    have harity : placeholders (String.ofList (encode text more)).toList = values.length := by
      rw [placeholders, hread]
      exact hlength
    have hcompile := compile_filled hfault harity
    rw [hread] at hcompile
    exact hcompile
  · intro p sql values
    refine ⟨placeholders sql.toList, fun m => counts_iff, fun h => ?_, fun h => ?_,
      fun hfault h => ?_, fun hfault => ?_⟩
    · obtain ⟨phrase, hphrase, hquery⟩ := p.template_filled h
      exact ⟨phrase, hphrase, by rw [hquery]⟩
    · rw [p.template_refused h]
      exact ⟨rfl, rfl⟩
    · exact ⟨_, compile_refused hfault h, rfl⟩
    · constructor
      · rintro ⟨phrase, hcompile⟩
        by_contra h
        rw [compile_refused hfault h] at hcompile
        cases hcompile
      · intro h
        obtain ⟨phrase, hcompile, -⟩ := compile_filled hfault h
        exact ⟨phrase, hcompile⟩

/-- A template with question marks of its own, and with two placeholders. -/
def tagsTemplate : String := "tags ??| ? AND note <> '??' AND rating = ?"

/-- The texts behind its placeholders. -/
def tagsTexts : List (List Char) := [" AND note <> '?' AND rating = ".toList, []]

theorem template_reads_tags :
    (∃ phrase, ((∅ : Predicate Nat).template tagsTemplate [7, 8]).compile = .ok phrase ∧
      phrase.query = ⟨"tags ?| $1 AND note <> '?' AND rating = $2", [7, 8]⟩) ∧
    ∃ cause, ((∅ : Predicate Nat).template tagsTemplate [7]).compile = .error cause ∧
      cause.message = "template \"tags ??| ? AND note <> '??' AND rating = ?\" has 2 " ++
        "placeholder(s) but 1 value(s) were given" := by
  have hseparate : Separate tagsTexts := ⟨by decide +kernel, by decide +kernel⟩
  have hencode : String.ofList (encode "tags ?| ".toList tagsTexts) = tagsTemplate := by
    decide +kernel
  have hwritten : String.ofList (written 0 "tags ?| ".toList tagsTexts) =
      "tags ?| $1 AND note <> '?' AND rating = $2" := by decide +kernel
  have hcounts : Counts tagsTemplate.toList 2 := counts_iff.2 (by decide +kernel)
  have hmessage : "template " ++ Text.Quoted.quote tagsTemplate ++ " has " ++ toString 2 ++
      " placeholder(s) but " ++ toString [7].length ++ " value(s) were given" =
        "template \"tags ??| ? AND note <> '??' AND rating = ?\" has 2 " ++
          "placeholder(s) but 1 value(s) were given" := by decide +kernel
  obtain ⟨hseparated, hall⟩ := template_reads (α := Nat)
  constructor
  · obtain ⟨phrase, hcompile, hquery⟩ :=
      hseparated ∅ "tags ?| ".toList tagsTexts [7, 8] rfl hseparate rfl
    rw [hencode] at hcompile
    rw [hwritten] at hquery
    exact ⟨phrase, hcompile, hquery rfl⟩
  · obtain ⟨n, hn, -, -, hrefused, -⟩ := hall ∅ tagsTemplate [7]
    obtain rfl : 2 = n := (hn 2).1 hcounts
    obtain ⟨cause, hcause, htext⟩ := hrefused rfl (by decide)
    exact ⟨cause, hcause, htext.trans hmessage⟩

end Predicate

end ParamSql
