import ParamSql.Proofs.Phrase.Pieces
import ParamSql.Proofs.Reading.Formula

/-!
# Lexemes of a condition

The text of a condition is read from the left, character by character, except that a text of the
caller's counts as one symbol whose characters are not looked at. Letters, digits, dots and quoted
texts that stand together are a word, so that a column with its qualifiers is one word. Texts of
the caller's and placeholders that stand together are one run.

Results:
* `text_symbols`: the symbols of a phrase are its text.
* `Lexes.append`: two texts are read one after the other if the second starts with a break.
* `lexes_name`, `lexes_value`, `lexes_words`: how the parts of a condition are read.
-/

namespace ParamSql

variable {α : Type}

/-- A symbol of a text: a character, or a text of the caller's as a whole. -/
inductive Symbol where
  | char (c : Char)
  | words (text : String)
  deriving DecidableEq, Repr

/-- The characters of a symbol. -/
def Symbol.chars : Symbol → List Char
  | .char c => [c]
  | .words text => text.toList

/-- The symbols of a piece; `n` values are bound before it. -/
def Piece.symbols (n : Nat) : Piece α → List Symbol
  | .raw text => [.words text]
  | p => (p.chars n).map .char

/-- The symbols of a phrase; `n` values are bound before it. -/
def Phrase.symbols (n : Nat) (p : Phrase α) : List Symbol := p.spell Piece.symbols n

theorem Piece.text_symbols (n : Nat) (q : Piece α) :
    (q.symbols n).flatMap Symbol.chars = q.chars n := by
  cases q <;> simp [symbols, chars, Symbol.chars, List.flatMap_map]

theorem Piece.text_spell (n : Nat) (ps : List (Piece α)) :
    (spell symbols n ps).flatMap Symbol.chars = spell chars n ps := by
  induction ps generalizing n with
  | nil => rfl
  | cons q qs ih => rw [spell, spell, List.flatMap_append, q.text_symbols, ih]

/-- The symbols of a phrase are its text. -/
theorem Phrase.text_symbols (n : Nat) (p : Phrase α) :
    (p.symbols n).flatMap Symbol.chars = p.chars n := Piece.text_spell n p.pieces

/-- A word, a run of the caller's texts and placeholders, or a single mark. -/
inductive Lexeme where
  | word (cs : List Char)
  | run (parts : List (Part Nat))
  | mark (c : Char)
  deriving DecidableEq, Repr

namespace Lexeme

/-- What is read at the end of a text so far. -/
inductive Pending where
  | nothing
  /-- A word, and whether a quote is open in it. -/
  | word (cs : List Char) (quoted : Bool)
  | run (parts : List (Part Nat))
  /-- A run that ends with a placeholder, of which these digits are read. -/
  | placeholder (parts : List (Part Nat)) (digits : List Char)
  deriving DecidableEq, Repr

namespace Pending

/-- The lexeme that is complete when nothing more belongs to it; an open quote is a mark. -/
def flush : Pending → List Lexeme
  | .nothing => []
  | .word cs quoted => if quoted then [.mark '"'] else [.word cs]
  | .run parts => [.run parts]
  | .placeholder parts digits => [.run (parts ++ [.value (Nat.ofDigitChars 10 digits 0)])]

/-- The lexeme with one symbol more, if the symbol belongs to it. -/
def extend? : Pending → Symbol → Option Pending
  | .word cs true, .char c => some (.word (cs ++ [c]) (c ≠ '"'))
  | .word cs false, .char c =>
    if Segment.isPart c || c = '.' || c = '"' then some (.word (cs ++ [c]) (c = '"')) else none
  | .run parts, .words text => some (.run (parts ++ [.text text]))
  | .run parts, .char c => if c = '$' then some (.placeholder parts []) else none
  | .placeholder parts digits, .char c =>
    if c.isDigit then some (.placeholder parts (digits ++ [c]))
    else if c = '$' then
      some (.placeholder (parts ++ [.value (Nat.ofDigitChars 10 digits 0)]) [])
    else none
  | .placeholder parts digits, .words text =>
    some (.run (parts ++ [.value (Nat.ofDigitChars 10 digits 0), .text text]))
  | _, _ => none

/-- What a symbol starts; a blank starts nothing, and other characters are marks. -/
def start : Symbol → List Lexeme × Pending
  | .words text => ([], .run [.text text])
  | .char c =>
    if c = ' ' then ([], .nothing)
    else if c = '$' then ([], .placeholder [] [])
    else if c = '"' then ([], .word [c] true)
    else if Segment.isPart c then ([], .word [c] false)
    else ([.mark c], .nothing)

end Pending

/-- The lexemes of a text behind what is pending. -/
def lex : Pending → List Symbol → List Lexeme
  | pending, [] => pending.flush
  | pending, s :: rest =>
    match pending.extend? s with
    | some pending => lex pending rest
    | none => pending.flush ++ (Pending.start s).1 ++ lex (Pending.start s).2 rest

/-- The lexemes of a text. -/
def ofSymbols (symbols : List Symbol) : List Lexeme := lex .nothing symbols

theorem lex_extend {pending next : Pending} {s : Symbol} (h : pending.extend? s = some next)
    (rest : List Symbol) : lex pending (s :: rest) = lex next rest := by
  simp [lex, h]

theorem lex_flush {pending : Pending} {s : Symbol} (h : pending.extend? s = none)
    (rest : List Symbol) : lex pending (s :: rest) = pending.flush ++ lex .nothing (s :: rest) := by
  simp [lex, h, show Pending.nothing.extend? s = none from rfl, Pending.flush]

/-! ## Breaks -/

/-- The symbols that end words and placeholders. -/
def isBreak : Symbol → Bool
  | .char c => c ∈ [' ', '(', ')', ',', '=']
  | .words _ => false

/-- The text starts with a break, or there is none. -/
def StartsBreak : List Symbol → Prop
  | [] => True
  | s :: _ => isBreak s = true

/-- The text is read as these lexemes in front of every text that starts with a break. -/
def Lexes (symbols : List Symbol) (lexemes : List Lexeme) : Prop :=
  ∀ rest, StartsBreak rest → lex .nothing (symbols ++ rest) = lexemes ++ lex .nothing rest

/-- The text is read as these lexemes in front of every text. -/
def LexesAlone (symbols : List Symbol) (lexemes : List Lexeme) : Prop :=
  ∀ rest, lex .nothing (symbols ++ rest) = lexemes ++ lex .nothing rest

theorem StartsBreak.append {first second : List Symbol} (h : StartsBreak first)
    (h' : StartsBreak second) : StartsBreak (first ++ second) := by
  cases first with
  | nil => exact h'
  | cons s rest => exact (h : isBreak s = true)

theorem Lexes.append {u v : List Symbol} {s t : List Lexeme} (hu : Lexes u s)
    (hb : StartsBreak v) (hv : Lexes v t) : Lexes (u ++ v) (s ++ t) := by
  intro rest hr
  rw [List.append_assoc, hu _ (hb.append hr), hv rest hr, List.append_assoc]

theorem LexesAlone.append {u v : List Symbol} {s t : List Lexeme} (hu : LexesAlone u s)
    (hv : Lexes v t) : Lexes (u ++ v) (s ++ t) := by
  intro rest hr
  rw [List.append_assoc, hu, hv rest hr, List.append_assoc]

theorem ofSymbols_eq {symbols : List Symbol} {lexemes : List Lexeme} (h : Lexes symbols lexemes) :
    ofSymbols symbols = lexemes := by
  have := h [] trivial
  rwa [List.append_nil, lex, Pending.flush, List.append_nil] at this

/-- A break belongs to nothing but a quoted text. -/
theorem extend?_break {pending : Pending} {s : Symbol} (hs : isBreak s = true)
    (hp : ∀ cs, pending ≠ .word cs true) : pending.extend? s = none := by
  cases s with
  | words text => simp [isBreak] at hs
  | char c =>
    have hc : c = ' ' ∨ c = '(' ∨ c = ')' ∨ c = ',' ∨ c = '=' := by simpa [isBreak] using hs
    cases pending with
    | nothing => rfl
    | word cs quoted =>
      cases quoted with
      | true => exact absurd rfl (hp cs)
      | false => rcases hc with rfl | rfl | rfl | rfl | rfl <;> rfl
    | run parts => rcases hc with rfl | rfl | rfl | rfl | rfl <;> rfl
    | placeholder parts digits => rcases hc with rfl | rfl | rfl | rfl | rfl <;> rfl

/-- A break ends what is pending, unless a quote is open. -/
theorem lex_break {pending : Pending} {rest : List Symbol} (hr : StartsBreak rest)
    (hp : ∀ cs, pending ≠ .word cs true) :
    lex pending rest = pending.flush ++ lex .nothing rest := by
  cases rest with
  | nil => simp [lex, Pending.flush]
  | cons s rest => exact lex_flush (extend?_break hr hp) rest

/-! ## Keywords -/

theorem lexes_and : LexesAlone (" AND ".toList.map .char) [.word "AND".toList] := fun _ => rfl

theorem lexes_or : LexesAlone (" OR ".toList.map .char) [.word "OR".toList] := fun _ => rfl

theorem lexes_equals : LexesAlone (" = ".toList.map .char) [.mark '='] := fun _ => rfl

theorem lexes_in : LexesAlone (" IN (".toList.map .char) [.word "IN".toList, .mark '('] :=
  fun _ => rfl

theorem lexes_notIn : LexesAlone (" NOT IN (".toList.map .char)
    [.word "NOT".toList, .word "IN".toList, .mark '('] := fun _ => rfl

/-! ## Names -/

theorem lex_plain {cs : List Char} (h : ∀ c ∈ cs, Segment.isPart c = true) (before : List Char)
    (rest : List Symbol) :
    lex (.word before false) (cs.map .char ++ rest) = lex (.word (before ++ cs) false) rest := by
  induction cs generalizing before with
  | nil => simp
  | cons c cs ih =>
    have hc : Segment.isPart c = true := h c (by simp)
    have hq : c ≠ '"' := by
      rintro rfl
      exact absurd hc (by decide)
    have he : (Pending.word before false).extend? (.char c) =
        some (.word (before ++ [c]) false) := by
      simp [Pending.extend?, hc, hq]
    rw [List.map_cons, List.cons_append, lex_extend he, ih fun d hd => h d (by simp [hd]),
      List.append_assoc, List.singleton_append]

theorem lex_quoted (cs before : List Char) (rest : List Symbol) :
    lex (.word before true) ((Segment.double cs ++ ['"']).map .char ++ rest) =
      lex (.word (before ++ (Segment.double cs ++ ['"'])) false) rest := by
  induction cs generalizing before with
  | nil => rfl
  | cons c cs ih =>
    unfold Segment.double
    split
    · have hopen : lex (.word before true)
          (('"' :: '"' :: Segment.double cs ++ ['"']).map .char ++ rest) =
            lex (.word (before ++ ['"'] ++ ['"']) true)
              ((Segment.double cs ++ ['"']).map .char ++ rest) := rfl
      rw [hopen, ih]
      simp
    · rename_i hc
      have he : (Pending.word before true).extend? (.char c) =
          some (.word (before ++ [c]) true) := by
        simp [Pending.extend?, hc]
      rw [List.cons_append, List.map_cons, List.cons_append, lex_extend he, ih, List.append_assoc,
        List.singleton_append]

theorem lex_segment {s : Segment} (h : s.isValid = true) (before : List Char)
    (rest : List Symbol) :
    lex (.word before false) (s.chars.map .char ++ rest) =
      lex (.word (before ++ s.chars) false) rest := by
  cases s with
  | plain name => exact lex_plain (Segment.all_isPart h) before rest
  | quoted name =>
    have := lex_quoted name.toList (before ++ ['"']) rest
    rw [List.append_assoc] at this
    exact this

theorem lex_dotted {more : List Segment} (h : ∀ s ∈ more, s.isValid = true) (before : List Char)
    (rest : List Symbol) :
    lex (.word before false) ((Segment.dotted more).map .char ++ rest) =
      lex (.word (before ++ Segment.dotted more) false) rest := by
  induction more generalizing before with
  | nil => simp [Segment.dotted]
  | cons s more ih =>
    have he : (Pending.word before false).extend? (.char '.') =
        some (.word (before ++ ['.']) false) := rfl
    have hd : Segment.dotted (s :: more) = '.' :: (s.chars ++ Segment.dotted more) := rfl
    rw [hd, List.map_cons, List.cons_append, lex_extend he, List.map_append, List.append_assoc,
      lex_segment (h s (by simp)), ih fun t ht => h t (by simp [ht])]
    simp

/-- The first segment of a name starts a word. -/
theorem lex_first {s : Segment} (h : s.isValid = true) (rest : List Symbol) :
    lex .nothing (s.chars.map .char ++ rest) = lex (.word s.chars false) rest := by
  cases s with
  | quoted name => exact lex_quoted name.toList ['"'] rest
  | plain name =>
    simp only [Segment.isValid_plain] at h
    simp only [Segment.chars]
    cases hn : name.toList with
    | nil => simp [hn, Segment.isPlain] at h
    | cons c cs =>
      rw [hn] at h
      have hp := Segment.all_isPart h
      have hc := hp c (by simp)
      have hs : Segment.isStart c = true := by
        simp only [Segment.isPlain, Bool.and_eq_true] at h
        exact h.1
      have h1 : c ≠ ' ' := by
        rintro rfl
        exact absurd hc (by decide)
      have h2 : c ≠ '$' := by
        rintro rfl
        exact absurd hs (by decide)
      have h3 : c ≠ '"' := by
        rintro rfl
        exact absurd hc (by decide)
      have hstart : lex .nothing (Symbol.char c :: (cs.map .char ++ rest)) =
          lex (.word [c] false) (cs.map .char ++ rest) := by
        simp [lex, Pending.extend?, Pending.start, Pending.flush, h1, h2, h3, hc]
      rw [List.map_cons, List.cons_append, hstart, lex_plain fun d hd => hp d (by simp [hd])]
      rfl

/-- A name is one word. -/
theorem lexes_name (x : Identifier) : Lexes (x.chars.map .char) [.word x.chars] := by
  intro rest hr
  have hv := List.forall_mem_cons.1 x.valid
  rw [Identifier.chars, List.map_append, List.append_assoc, lex_first hv.1, lex_dotted hv.2,
    lex_break hr (by simp)]
  rfl

/-! ## Placeholders and the caller's words -/

theorem lex_digits {ds : List Char} (h : ∀ c ∈ ds, c.isDigit = true) (parts : List (Part Nat))
    (before : List Char) (rest : List Symbol) :
    lex (.placeholder parts before) (ds.map .char ++ rest) =
      lex (.placeholder parts (before ++ ds)) rest := by
  induction ds generalizing before with
  | nil => simp
  | cons d ds ih =>
    have he : (Pending.placeholder parts before).extend? (.char d) =
        some (.placeholder parts (before ++ [d])) := by
      simp [Pending.extend?, h d (by simp)]
    rw [List.map_cons, List.cons_append, lex_extend he, ih fun c hc => h c (by simp [hc]),
      List.append_assoc, List.singleton_append]

theorem lex_placeholder (parts : List (Part Nat)) (k : Nat) (rest : List Symbol) :
    lex (.placeholder parts []) ((Nat.toDigits 10 k).map .char ++ rest) =
      lex (.placeholder parts (Nat.toDigits 10 k)) rest :=
  lex_digits (fun _ => Nat.isDigit_of_mem_toDigits (by decide) (by decide)) parts [] rest

theorem flush_placeholder (parts : List (Part Nat)) (k : Nat) :
    (Pending.placeholder parts (Nat.toDigits 10 k)).flush = [.run (parts ++ [.value k])] := by
  simp [Pending.flush, Nat.ofDigitChars_ten_toDigits]

/-- A placeholder is a run of its own. -/
theorem lexes_value (n : Nat) (v : α) :
    Lexes ((Piece.value v).symbols n) [.run [.value (n + 1)]] := by
  intro rest hr
  have hstart : lex .nothing ((Piece.value v).symbols n ++ rest) =
      lex (.placeholder [] []) ((Nat.toDigits 10 (n + 1)).map .char ++ rest) := rfl
  rw [hstart, lex_placeholder, lex_break hr (by simp), flush_placeholder]
  rfl

end Lexeme

/-! ## The caller's words -/

/-- A text of the caller's, or a value among such. -/
def Piece.IsWords : Piece α → Prop
  | .raw _ => True
  | .value _ => True
  | _ => False

/-- The part that a piece is in the caller's words, with the number of its placeholder. -/
def Piece.numberedParts (n : Nat) : Piece α → List (Part Nat)
  | .raw text => [.text text]
  | .value _ => [.value (n + 1)]
  | _ => []

namespace Lexeme

/-- What is pending takes further words of the caller's behind these. -/
def Continues (pending : Pending) (parts : List (Part Nat)) : Prop :=
  (∀ text rest, lex pending (.words text :: rest) = lex (.run (parts ++ [.text text])) rest) ∧
    ∀ rest, lex pending (.char '$' :: rest) = lex (.placeholder parts []) rest

theorem continues_nothing : Continues .nothing [] := ⟨fun _ _ => rfl, fun _ => rfl⟩

theorem continues_run (parts : List (Part Nat)) : Continues (.run parts) parts :=
  ⟨fun _ _ => rfl, fun _ => rfl⟩

theorem continues_placeholder (parts : List (Part Nat)) (k : Nat) :
    Continues (.placeholder parts (Nat.toDigits 10 k)) (parts ++ [.value k]) := by
  refine ⟨fun text rest => ?_, fun rest => ?_⟩
  · rw [lex_extend rfl, Nat.ofDigitChars_ten_toDigits, List.append_assoc]
    rfl
  · have he : (Pending.placeholder parts (Nat.toDigits 10 k)).extend? (.char '$') =
        some (.placeholder (parts ++ [.value (Nat.ofDigitChars 10 (Nat.toDigits 10 k) 0)]) []) :=
      rfl
    rw [lex_extend he, Nat.ofDigitChars_ten_toDigits]

/-- Words of the caller's with values among them are one run. -/
theorem lex_words {ps : List (Piece α)} (h : ∀ p ∈ ps, p.IsWords) (hne : ps ≠ []) (n : Nat)
    {pending : Pending} {parts : List (Part Nat)} (hp : Continues pending parts)
    {rest : List Symbol} (hr : StartsBreak rest) :
    lex pending (Piece.spell Piece.symbols n ps ++ rest) =
      .run (parts ++ Piece.spell Piece.numberedParts n ps) :: lex .nothing rest := by
  induction ps generalizing n pending parts with
  | nil => exact absurd rfl hne
  | cons p ps ih =>
    have hps : ∀ q ∈ ps, q.IsWords := fun q hq => h q (by simp [hq])
    have hfirst : p.IsWords := h p (by simp)
    rw [Piece.spell, Piece.spell, List.append_assoc]
    cases p with
    | keyword text => exact hfirst.elim
    | name x => exact hfirst.elim
    | raw text =>
      simp only [Piece.symbols, List.cons_append, List.nil_append, hp.1]
      by_cases hnil : ps = []
      · subst hnil
        rw [Piece.spell_nil, List.nil_append, lex_break hr (by simp)]
        rfl
      · rw [ih hps hnil _ (continues_run _), List.append_assoc]
        rfl
    | value v =>
      have hstart : lex pending ((Piece.value v).symbols n ++
          (Piece.spell Piece.symbols (n + (Piece.value v).count) ps ++ rest)) =
            lex (.placeholder parts (Nat.toDigits 10 (n + 1)))
              (Piece.spell Piece.symbols (n + (Piece.value v).count) ps ++ rest) := by
        rw [← lex_placeholder, ← hp.2]
        rfl
      rw [hstart]
      by_cases hnil : ps = []
      · subst hnil
        rw [Piece.spell_nil, List.nil_append, lex_break hr (by simp), flush_placeholder]
        rfl
      · rw [ih hps hnil _ (continues_placeholder _ _), List.append_assoc]
        rfl

/-- Words of the caller's are read as one run. -/
theorem lexes_words {ps : List (Piece α)} (h : ∀ p ∈ ps, p.IsWords) (hne : ps ≠ []) (n : Nat) :
    Lexes (Piece.spell Piece.symbols n ps) [.run (Piece.spell Piece.numberedParts n ps)] :=
  fun _ hr => lex_words h hne n continues_nothing hr

end Lexeme

end ParamSql
