import Mathlib.Data.List.Chain
import ParamSql.Identifier

/-!
# Texts with quoted regions

A text is scanned from the left. Outside of quotes every character is an item of its own; a quoted
region is one item, in which a quote is written twice. What can go wrong when untrusted names are
put into a text shows in its items: a quote that stays open, a character that does not belong
outside of quotes, a parenthesis without its partner, or a placeholder that is none of the bound
values.

Results:
* `scan_print`: items are found again in their text unless two quoted regions touch.
* `depth_append`, `parameters_append`: parentheses and placeholders of texts put together.
* `Lexical.append`: texts in good order stay so side by side if no two words touch.
-/

namespace ParamSql

/-- A character outside of quotes, or a quoted region with the name that it stands for. -/
inductive Item where
  | char (c : Char)
  | quoted (name : List Char)
  deriving DecidableEq, Repr

namespace Item

/-- The characters of an item. -/
def chars : Item → List Char
  | .char c => [c]
  | .quoted name => '"' :: (Segment.double name ++ ['"'])

/-- Whether the item is a quoted region. -/
def isQuoted : Item → Bool
  | .char _ => false
  | .quoted _ => true

/-- Whether the item is a character of an unquoted identifier. -/
def isPart : Item → Bool
  | .char c => Segment.isPart c
  | .quoted _ => false

/-- Whether the item belongs to a word, so that what follows could be taken as part of it. -/
def isWord (i : Item) : Bool := i.isPart || i.isQuoted

/-- The depth of parentheses after an item; none if a parenthesis is closed that is not open. -/
def nest (depth : Nat) : Item → Option Nat
  | .char '(' => some (depth + 1)
  | .char ')' => if depth = 0 then none else some (depth - 1)
  | _ => some depth

end Item

/-! ## Scanning -/

/-- Scans a text, outside of quotes or behind this part of a quoted name; none if a quote stays
open. -/
def scan : Option (List Char) → List Char → Option (List Item)
  | none, [] => some []
  | none, '"' :: rest => scan (some []) rest
  | none, c :: rest => (scan none rest).map (.char c :: ·)
  | some _, [] => none
  | some name, '"' :: '"' :: rest => scan (some (name ++ ['"'])) rest
  | some name, '"' :: rest => (scan none rest).map (.quoted name :: ·)
  | some name, c :: rest => scan (some (name ++ [c])) rest

/-- The text of items. -/
def print (items : List Item) : List Char := items.flatMap Item.chars

theorem print_chars (cs : List Char) : print (cs.map .char) = cs := by
  rw [print, List.flatMap_map]
  exact List.flatMap_singleton' cs

theorem scan_char {c : Char} (h : c ≠ '"') (rest : List Char) :
    scan none (c :: rest) = (scan none rest).map (.char c :: ·) := by
  rw [scan]
  exact h

theorem scan_inner (name : List Char) {c : Char} (h : c ≠ '"') (rest : List Char) :
    scan (some name) (c :: rest) = scan (some (name ++ [c])) rest := by
  rw [scan]
  · exact fun _ e _ => h e
  · exact h

theorem scan_close (name : List Char) {rest : List Char} (h : rest.head? ≠ some '"') :
    scan (some name) ('"' :: rest) = (scan none rest).map (.quoted name :: ·) := by
  rw [scan]
  rintro rest' rfl
  exact h rfl

/-- A quoted region is scanned up to a quote that is not doubled. -/
theorem scan_quoted (name before : List Char) {rest : List Char} (h : rest.head? ≠ some '"') :
    scan (some before) (Segment.double name ++ '"' :: rest) =
      (scan none rest).map (.quoted (before ++ name) :: ·) := by
  induction name generalizing before with
  | nil => rw [Segment.double, List.nil_append, scan_close before h, List.append_nil]
  | cons c name ih =>
    rw [Segment.double]
    split
    · rename_i hc
      rw [List.cons_append, List.cons_append, scan, ih, List.append_assoc, hc]
      rfl
    · rename_i hc
      rw [List.cons_append, scan_inner before hc, ih, List.append_assoc]
      rfl

/-- No two quoted regions touch. -/
def Unfused (items : List Item) : Prop := items.IsChain fun i j => ¬ (i.isQuoted ∧ j.isQuoted)

theorem head?_print {items : List Item} (hq : ∀ c, .char c ∈ items → c ≠ '"')
    (h : ∀ i ∈ items.head?, i.isQuoted = false) : (print items).head? ≠ some '"' := by
  cases items with
  | nil => simp [print]
  | cons i rest =>
    cases i with
    | quoted name => simp [Item.isQuoted] at h
    | char c => simpa [print, Item.chars] using hq c (by simp)

/-- Items are found again in their text. -/
theorem scan_print {items : List Item} (h : Unfused items)
    (hq : ∀ c, .char c ∈ items → c ≠ '"') : scan none (print items) = some items := by
  induction items with
  | nil => rfl
  | cons i rest ih =>
    obtain ⟨hfirst, hrest⟩ := List.isChain_cons.1 h
    have hq' : ∀ c, .char c ∈ rest → c ≠ '"' := fun c hc => hq c (by simp [hc])
    have ih := ih hrest hq'
    have hprint : print (i :: rest) = i.chars ++ print rest := List.flatMap_cons
    rw [hprint]
    cases i with
    | char c =>
      rw [Item.chars, List.singleton_append, scan_char (hq c (by simp)), ih]
      rfl
    | quoted name =>
      have hhead := head?_print hq' fun j hj => by simpa [Item.isQuoted] using hfirst j hj
      have := scan_quoted name [] hhead
      rw [Item.chars, List.cons_append, List.append_assoc, List.singleton_append, scan, this, ih]
      rfl

/-! ## Parentheses and placeholders -/

/-- The depth of parentheses after items; none if one is closed that is not open. -/
def depth (start : Nat) (items : List Item) : Option Nat := items.foldlM Item.nest start

theorem depth_append (start : Nat) (first second : List Item) :
    depth start (first ++ second) = (depth start first).bind (depth · second) :=
  List.foldlM_append

/-- The digits at the start of items. -/
def leadingDigits : List Item → List Char
  | .char c :: rest => if c.isDigit then c :: leadingDigits rest else []
  | _ => []

/-- The digits of the placeholders among items: of every `$` with digits behind it that does not
follow a character of an identifier. `follows` says whether such a character stands before. -/
def parameters : (follows : Bool) → List Item → List (List Char)
  | _, [] => []
  | follows, i :: rest =>
    let digits := leadingDigits rest
    if i = .char '$' ∧ follows = false ∧ digits ≠ [] then digits :: parameters true rest
    else parameters i.isPart rest

/-- No word of the second text goes on with a word of the first one. -/
def Apart (first second : List Item) : Prop :=
  ∀ i ∈ first.getLast?, ∀ j ∈ second.head?, ¬ (i.isWord = true ∧ j.isWord = true)

theorem Apart.of_cons {i j : Item} {first second : List Item}
    (h : Apart (i :: j :: first) second) : Apart (j :: first) second := by
  rw [Apart, List.getLast?_cons_cons] at h
  exact h

theorem isPart_of_isDigit {c : Char} (h : c.isDigit = true) : Segment.isPart c = true := by
  simp [Segment.isPart, Char.isAlphanum, h]

theorem leadingDigits_of_head {items : List Item} (h : ∀ i ∈ items.head?, i.isPart = false) :
    leadingDigits items = [] := by
  match items with
  | [] => rfl
  | .quoted name :: rest => rfl
  | .char c :: rest =>
    have hc : Segment.isPart c = false := h (.char c) rfl
    have hd : ¬ c.isDigit = true := fun e => by simp [isPart_of_isDigit e] at hc
    rw [leadingDigits, if_neg hd]

theorem isPart_eq_false_of_apart {i : Item} {second : List Item} (h : Apart [i] second)
    (hi : i.isWord = true) : ∀ j ∈ second.head?, j.isPart = false := by
  intro j hj
  have := h i rfl j hj
  simp only [hi, true_and] at this
  simp only [Item.isWord, Bool.or_eq_true, not_or] at this
  simpa using this.1

theorem leadingDigits_append {first second : List Item} (hne : first ≠ [])
    (h : Apart first second) : leadingDigits (first ++ second) = leadingDigits first := by
  induction first with
  | nil => exact absurd rfl hne
  | cons i rest ih =>
    cases i with
    | quoted name => rfl
    | char c =>
      rw [List.cons_append, leadingDigits, leadingDigits]
      split
      · rename_i hd
        cases rest with
        | nil =>
          have hw : (Item.char c).isWord = true := by
            simp [Item.isWord, Item.isPart, isPart_of_isDigit hd]
          rw [List.nil_append, leadingDigits_of_head (isPart_eq_false_of_apart h hw)]
          rfl
        | cons j rest => rw [ih (by simp) h.of_cons]
      · rfl

/-- Whether an identifier goes before matters only to a word. -/
theorem parameters_of_head {items : List Item} (h : ∀ i ∈ items.head?, i.isPart = false)
    (follows : Bool) : parameters follows items = parameters false items := by
  cases items with
  | nil => rfl
  | cons i rest =>
    have hi : i ≠ .char '$' := by
      rintro rfl
      exact absurd (h _ rfl) (by decide)
    rw [parameters, parameters, if_neg fun e => hi e.1, if_neg fun e => hi e.1]

theorem parameters_append {first second : List Item} (h : Apart first second) :
    ∀ follows, first ≠ [] → parameters follows (first ++ second) =
      parameters follows first ++ parameters false second := by
  induction first with
  | nil => exact fun _ hne => absurd rfl hne
  | cons i rest ih =>
    intro follows _
    rw [List.cons_append, parameters, parameters]
    cases rest with
    | nil =>
      have hflag : ∀ b, (b = true → i.isWord = true) →
          parameters b second = parameters false second := by
        intro b hb
        cases b with
        | false => rfl
        | true => exact parameters_of_head (isPart_eq_false_of_apart h (hb rfl)) true
      have hdigits : i = .char '$' → leadingDigits second = [] := by
        rintro rfl
        exact leadingDigits_of_head (isPart_eq_false_of_apart h rfl)
      have hno : ¬ (i = .char '$' ∧ follows = false ∧ leadingDigits ([] ++ second) ≠ []) :=
        fun e => e.2.2 (hdigits e.1)
      have hno' : ¬ (i = .char '$' ∧ follows = false ∧ leadingDigits [] ≠ []) :=
        fun e => e.2.2 rfl
      rw [if_neg hno, if_neg hno', List.nil_append,
        hflag i.isPart fun e => by rw [Item.isWord, e]; rfl]
      rfl
    | cons j rest =>
      rw [leadingDigits_append (by simp) h.of_cons]
      simp only [ih h.of_cons _ (by simp : j :: rest ≠ [])]
      split <;> rfl

/-! ## Texts in good order -/

/-- The characters that may stand outside of quotes. -/
def isAllowed (c : Char) : Bool :=
  c.isAlphanum || c ∈ ['_', '$', '.', ',', '(', ')', '=', '*', ' ']

/-- The item may stand in a text where these names may be quoted. -/
def Item.IsAllowed (names : List Char → Prop) : Item → Prop
  | .char c => isAllowed c = true
  | .quoted name => names name

/-- The items are in good order: nothing but these names is quoted, nothing else stands outside of
quotes than may, the parentheses lead from one depth to another, and these are the placeholders. -/
structure Lexical (names : List Char → Prop) (start stop : Nat) (params : List (List Char))
    (items : List Item) : Prop where
  unfused : Unfused items
  allowed : ∀ i ∈ items, i.IsAllowed names
  depth : depth start items = some stop
  parameters : parameters false items = params

namespace Lexical

variable {names : List Char → Prop} {a b c : Nat} {ps qs : List (List Char)}
  {first second : List Item}

theorem nil : Lexical names a a [] [] :=
  ⟨List.isChain_nil, by simp, rfl, rfl⟩

/-- Texts in good order stay so side by side if no two words touch. -/
theorem append (h : Lexical names a b ps first) (h' : Lexical names b c qs second)
    (hapart : Apart first second) : Lexical names a c (ps ++ qs) (first ++ second) := by
  refine ⟨?_, ?_, ?_, ?_⟩
  · refine List.isChain_append.2 ⟨h.unfused, h'.unfused, fun i hi j hj hq => ?_⟩
    refine hapart i hi j hj ⟨?_, ?_⟩
    · rw [Item.isWord, hq.1, Bool.or_true]
    · rw [Item.isWord, hq.2, Bool.or_true]
  · intro i hi
    rcases List.mem_append.1 hi with hi | hi
    · exact h.allowed i hi
    · exact h'.allowed i hi
  · rw [depth_append, h.depth]
    exact h'.depth
  · cases first with
    | nil =>
      have hps : ps = [] := h.parameters.symm
      rw [hps]
      exact h'.parameters
    | cons i rest =>
      rw [parameters_append hapart false (by simp), h.parameters, h'.parameters]

/-- A text in good order is scanned as its items. -/
theorem scan_print (h : Lexical names a b ps first) : scan none (print first) = some first := by
  refine ParamSql.scan_print h.unfused fun c hc => ?_
  have hallowed : isAllowed c = true := h.allowed _ hc
  rintro rfl
  exact absurd hallowed (by decide)

end Lexical

/-! ## Words -/

theorem isAllowed_of_isPart {c : Char} (h : Segment.isPart c = true) : isAllowed c = true := by
  simp only [Segment.isPart, Bool.or_eq_true, decide_eq_true_eq] at h
  rcases h with (rfl | rfl) | h
  · rfl
  · rfl
  · simp [isAllowed, h]

theorem unfused_chars (cs : List Char) : Unfused (cs.map .char) := by
  induction cs with
  | nil => exact List.isChain_nil
  | cons c cs ih =>
    refine List.isChain_cons.2 ⟨fun j _ hq => ?_, ih⟩
    cases hq.1

theorem depth_part {cs : List Char} (h : ∀ c ∈ cs, Segment.isPart c = true) (start : Nat) :
    depth start (cs.map .char) = some start := by
  induction cs with
  | nil => rfl
  | cons c cs ih =>
    obtain ⟨hc, hcs⟩ := List.forall_mem_cons.1 h
    have hnest : Item.nest start (.char c) = some start := by
      unfold Item.nest
      split
      · rename_i e
        cases e
        exact absurd hc (by decide)
      · rename_i e
        cases e
        exact absurd hc (by decide)
      · rfl
    rw [List.map_cons, depth, List.foldlM_cons, hnest]
    exact ih hcs

theorem parameters_part {cs : List Char} (h : ∀ c ∈ cs, Segment.isPart c = true) :
    parameters true (cs.map .char) = [] := by
  induction cs with
  | nil => rfl
  | cons c cs ih =>
    obtain ⟨hc, hcs⟩ := List.forall_mem_cons.1 h
    have hpart : (Item.char c).isPart = true := hc
    rw [List.map_cons, parameters, if_neg (by simp), hpart, ih hcs]

/-- A word whose first character is no `$` has no placeholder. -/
theorem lexical_plain {names : List Char → Prop} {cs : List Char} (h : Segment.isPlain cs = true)
    (a : Nat) : Lexical names a a [] (cs.map .char) := by
  have hparts := Segment.all_isPart h
  refine ⟨unfused_chars cs, ?_, depth_part hparts a, ?_⟩
  · intro i hi
    obtain ⟨c, hc, rfl⟩ := List.mem_map.1 hi
    exact isAllowed_of_isPart (hparts c hc)
  · cases cs with
    | nil => rfl
    | cons c cs =>
      simp only [Segment.isPlain, Bool.and_eq_true] at h
      have hc : Item.char c ≠ .char '$' := by
        intro e
        cases e
        exact absurd h.1 (by decide)
      have hpart : (Item.char c).isPart = true := hparts c (by simp)
      rw [List.map_cons, parameters, if_neg fun e => hc e.1, hpart,
        parameters_part fun d hd => hparts d (by simp [hd])]

theorem lexical_quoted {names : List Char → Prop} {name : List Char} (h : names name) (a : Nat) :
    Lexical names a a [] [.quoted name] :=
  ⟨List.isChain_singleton _, by simpa [Item.IsAllowed] using h, rfl, rfl⟩

theorem leadingDigits_digits {cs : List Char} (h : ∀ c ∈ cs, c.isDigit = true) :
    leadingDigits (cs.map .char) = cs := by
  induction cs with
  | nil => rfl
  | cons c cs ih =>
    obtain ⟨hc, hcs⟩ := List.forall_mem_cons.1 h
    rw [List.map_cons, leadingDigits, if_pos hc, ih hcs]

/-- A placeholder. -/
theorem lexical_placeholder {names : List Char → Prop} {digits : List Char} (hne : digits ≠ [])
    (h : ∀ c ∈ digits, c.isDigit = true) (a : Nat) :
    Lexical names a a [digits] (.char '$' :: digits.map .char) := by
  have hparts : ∀ c ∈ '$' :: digits, Segment.isPart c = true :=
    List.forall_mem_cons.2 ⟨rfl, fun c hc => isPart_of_isDigit (h c hc)⟩
  refine ⟨unfused_chars ('$' :: digits), ?_, depth_part hparts a, ?_⟩
  · intro i hi
    obtain ⟨c, hc, rfl⟩ := List.mem_map.1 (show i ∈ ('$' :: digits).map Item.char from hi)
    exact isAllowed_of_isPart (hparts c hc)
  · rw [parameters, leadingDigits_digits h, if_pos ⟨rfl, rfl, hne⟩,
      parameters_part fun c hc => hparts c (by simp [hc])]

end ParamSql
