import ParamSql.Proofs.Lexical.Items
import ParamSql.Proofs.Phrase.Pieces

/-!
# Phrases in good order

The items of a phrase are in good order if its names are scanned as their segments, its placeholders
are those of its values, and its keywords keep words apart. What is put together with keywords that
start and end with a blank or a mark is in good order with its parts.

Results:
* `print_items`: the items of a phrase are its text.
* `lexical_items`: a name is scanned as its segments.
* `Tidy.around`: phrases with a keyword between them.
* `isTidy_seq`, `isTidy_parens`, `isTidy_ledBy`: the ways to put phrases together.
-/

namespace ParamSql

variable {α : Type}

/-! ## Items of names -/

namespace Segment

/-- The items of a segment. -/
def items : Segment → List Item
  | .plain name => name.toList.map .char
  | .quoted name => [.quoted name.toList]

theorem print_items (s : Segment) : print s.items = s.chars := by
  cases s with
  | plain name => exact print_chars _
  | quoted name => exact List.append_nil _

end Segment

/-- The names that are quoted in an identifier among these. -/
def quotedIn (passed : Identifier → Prop) (name : List Char) : Prop :=
  ∃ x, passed x ∧ .quoted (String.ofList name) ∈ x.segments

namespace Identifier

/-- The items of an identifier. -/
def items (x : Identifier) : List Item :=
  x.head.items ++ x.tail.flatMap fun s => .char '.' :: s.items

theorem print_items (x : Identifier) : print x.items = x.chars := by
  have htail : print (x.tail.flatMap fun s => .char '.' :: s.items) = Segment.dotted x.tail := by
    rw [print, List.flatMap_assoc, Segment.dotted]
    congr 1
    funext s
    rw [List.flatMap_cons, ← print, Segment.print_items]
    rfl
  rw [items, print, List.flatMap_append, ← print, ← print, htail, Segment.print_items, chars]

variable {passed : Identifier → Prop}

theorem lexical_segment {s : Segment} (h : s.isValid = true)
    (hq : ∀ name, s = .quoted name → quotedIn passed name.toList) (a : Nat) :
    Lexical (quotedIn passed) a a [] s.items := by
  cases s with
  | plain name => exact lexical_plain h a
  | quoted name => exact lexical_quoted (hq name rfl) a

/-- Segments behind dots start with a dot, so that no word touches what stands before. -/
theorem dotted_apart {more : List Segment} {j : Item}
    (hj : j ∈ (more.flatMap fun s => .char '.' :: s.items).head?) : ¬ j.isWord := by
  cases more with
  | nil => cases hj
  | cons t more =>
    obtain rfl : .char '.' = j := Option.some.inj hj
    decide

theorem lexical_dotted {more : List Segment} {a : Nat}
    (h : ∀ s ∈ more, Lexical (quotedIn passed) a a [] s.items) :
    Lexical (quotedIn passed) a a [] (more.flatMap fun s => .char '.' :: s.items) := by
  have hdot : Lexical (quotedIn passed) a a [] [.char '.'] :=
    ⟨List.isChain_singleton _, by simp [Item.IsAllowed, isAllowed], rfl, rfl⟩
  induction more with
  | nil => exact .nil
  | cons s more ih =>
    obtain ⟨hs, hmore⟩ := List.forall_mem_cons.1 h
    have hfirst := hdot.append hs fun i hi _ _ hw => by
      obtain rfl : .char '.' = i := Option.some.inj hi
      exact absurd hw.1 (by decide)
    exact hfirst.append (ih hmore) fun _ _ j hj hw => dotted_apart hj hw.2

/-- A name is scanned as its segments. -/
theorem lexical_items {x : Identifier} (h : ∀ s ∈ x.segments, ∃ y, passed y ∧ s ∈ y.segments)
    (a : Nat) : Lexical (quotedIn passed) a a [] x.items := by
  have hsegments : ∀ s ∈ x.segments, Lexical (quotedIn passed) a a [] s.items := by
    intro s hs
    refine lexical_segment (x.valid s hs) ?_ a
    rintro name rfl
    obtain ⟨y, hy, hsegment⟩ := h _ hs
    exact ⟨y, hy, by rwa [String.ofList_toList]⟩
  obtain ⟨hhead, htail⟩ := List.forall_mem_cons.1 hsegments
  exact hhead.append (lexical_dotted htail) fun _ _ j hj hw => dotted_apart hj hw.2

end Identifier

/-! ## Items of pieces -/

namespace Piece

/-- The items of a piece; `n` values are bound before it. -/
def items (n : Nat) : Piece α → List Item
  | .keyword text => text.toList.map .char
  | .raw text => text.toList.map .char
  | .name x => x.items
  | .value _ => .char '$' :: (Nat.toDigits 10 (n + 1)).map .char

theorem print_items (n : Nat) (p : Piece α) : print (p.items n) = p.chars n := by
  cases p with
  | keyword text => exact print_chars _
  | raw text => exact print_chars _
  | name x => exact x.print_items
  | value v => exact print_chars ('$' :: Nat.toDigits 10 (n + 1))

theorem print_spell (n : Nat) (ps : List (Piece α)) :
    print (spell items n ps) = spell chars n ps := by
  induction ps generalizing n with
  | nil => rfl
  | cons p ps ih =>
    rw [spell, spell, print, List.flatMap_append, ← print, ← print, print_items, ih]

/-- The digits of the placeholders for so many values; `n` are bound before. -/
def numbers (n count : Nat) : List (List Char) :=
  (List.range' (n + 1) count).map (Nat.toDigits 10)

theorem numbers_append (n j k : Nat) : numbers n j ++ numbers (n + j) k = numbers n (j + k) := by
  have h : n + j + 1 = n + 1 + 1 * j := by omega
  rw [numbers, numbers, numbers, ← List.map_append, h, List.range'_append]

/-- The pieces are in good order, whatever is bound before them. -/
def Tidy (passed : Identifier → Prop) (a b : Nat) (ps : List (Piece α)) : Prop :=
  ∀ n, Lexical (quotedIn passed) a b (numbers n (values ps).length) (spell items n ps)

/-- The pieces start with no word. -/
def Opens (ps : List (Piece α)) : Prop :=
  ∀ n, ∀ i ∈ (spell items n ps).head?, i.isWord = false

/-- The pieces end with no word. -/
def Closes (ps : List (Piece α)) : Prop :=
  ∀ n, ∀ i ∈ (spell items n ps).getLast?, i.isWord = false

variable {passed : Identifier → Prop} {a b c d : Nat} {ps qs : List (Piece α)}

theorem Tidy.append (h : Tidy passed a b ps) (h' : Tidy passed b c qs)
    (hapart : Closes ps ∨ Opens qs) : Tidy passed a c (ps ++ qs) := by
  intro n
  rw [spell_append, values_append, List.length_append, ← numbers_append]
  refine (h n).append (h' _) fun i hi j hj hw => ?_
  rcases hapart with hapart | hapart
  · rw [hapart n i hi] at hw
    cases hw.1
  · rw [hapart _ j hj] at hw
    cases hw.2

theorem tidy_nil : Tidy passed a a ([] : List (Piece α)) := fun _ => .nil

theorem tidy_name {x : Identifier} (h : ∀ s ∈ x.segments, ∃ y, passed y ∧ s ∈ y.segments) :
    Tidy passed a a ([.name x] : List (Piece α)) := by
  intro n
  rw [spell_singleton]
  exact Identifier.lexical_items h a

theorem tidy_value (v : α) : Tidy passed a a [.value v] := by
  intro n
  rw [spell_singleton]
  exact lexical_placeholder Nat.toDigits_ne_nil
    (fun _ => Nat.isDigit_of_mem_toDigits (by decide) (by decide)) a

/-! ### Keywords -/

/-- The text is one of keywords and marks without placeholders, and its parentheses lead from one
depth to another. -/
structure IsKeyword (a b : Nat) (text : String) : Prop where
  allowed : (text.toList.all fun c => isAllowed c && c ≠ '$') = true
  depth : depth a (text.toList.map .char) = some b

/-- The text starts with a blank or a mark. -/
def startsApart (text : String) : Bool := text.toList.head?.any fun c => !Segment.isPart c

/-- The text ends with a blank or a mark. -/
def endsApart (text : String) : Bool := text.toList.getLast?.any fun c => !Segment.isPart c

theorem parameters_keyword {cs : List Char} (h : '$' ∉ cs) (follows : Bool) :
    parameters follows (cs.map .char) = [] := by
  induction cs generalizing follows with
  | nil => rfl
  | cons c cs ih =>
    rw [List.mem_cons, not_or] at h
    have hc : Item.char c ≠ .char '$' := fun e => h.1 (Item.char.inj e).symm
    rw [List.map_cons, parameters, if_neg fun e => hc e.1, ih h.2]

theorem items_ofKeyword (n : Nat) (text : String) :
    spell items n (ofKeyword text : List (Piece α)) = text.toList.map .char := by
  unfold ofKeyword
  split
  · rename_i h
    rw [h]
    rfl
  · exact spell_singleton items n _

theorem tidy_keyword {text : String} (h : IsKeyword a b text) :
    Tidy passed a b (ofKeyword text : List (Piece α)) := by
  have hall := List.all_eq_true.1 h.allowed
  simp only [Bool.and_eq_true, decide_eq_true_eq] at hall
  intro n
  rw [items_ofKeyword, values_ofKeyword]
  refine ⟨unfused_chars _, ?_, h.depth, ?_⟩
  · intro i hi
    obtain ⟨c, hc, rfl⟩ := List.mem_map.1 hi
    exact (hall c hc).1
  · exact parameters_keyword (fun hc => (hall '$' hc).2 rfl) false

theorem opens_keyword {text : String} (h : startsApart text = true) (qs : List (Piece α)) :
    Opens (ofKeyword text ++ qs) := by
  intro n i hi
  rw [spell_append, items_ofKeyword] at hi
  cases ht : text.toList with
  | nil => simp [startsApart, ht] at h
  | cons c cs =>
    rw [ht] at hi
    obtain rfl : .char c = i := Option.some.inj hi
    simpa [startsApart, ht, Item.isWord, Item.isPart, Item.isQuoted] using h

theorem closes_keyword {text : String} (h : endsApart text = true) :
    Closes (ofKeyword text : List (Piece α)) := by
  intro n i hi
  rw [items_ofKeyword, List.getLast?_map] at hi
  cases ht : text.toList.getLast? with
  | none => simp [endsApart, ht] at h
  | some c =>
    obtain rfl : .char c = i := by simpa [ht] using hi
    simpa [endsApart, ht, Item.isWord, Item.isPart, Item.isQuoted] using h

/-- Pieces behind a keyword that keeps apart from them. -/
theorem Tidy.led {text : String} (hk : IsKeyword a b text) (he : endsApart text = true)
    (h : Tidy passed b c qs) : Tidy passed a c (ofKeyword text ++ qs) :=
  (tidy_keyword hk).append h (.inl (closes_keyword he))

/-- Pieces with a keyword between them that keeps apart from both. -/
theorem Tidy.around {text : String} (h : Tidy passed a b ps) (hk : IsKeyword b c text)
    (hs : startsApart text = true) (he : endsApart text = true) (h' : Tidy passed c d qs) :
    Tidy passed a d (ps ++ (ofKeyword text ++ qs)) :=
  h.append (.led hk he h') (.inr (opens_keyword hs qs))

/-- Pieces in front of a keyword that keeps apart from them. -/
theorem Tidy.followed {text : String} (h : Tidy passed a b ps) (hk : IsKeyword b c text)
    (hs : startsApart text = true) : Tidy passed a c (ps ++ ofKeyword text) := by
  have hopens := opens_keyword hs ([] : List (Piece α))
  rw [List.append_nil] at hopens
  exact h.append (tidy_keyword hk) (.inr hopens)

end Piece

/-! ## Phrases -/

namespace Phrase

open Piece (Tidy IsKeyword startsApart endsApart ofKeyword)

/-- The phrase is in good order at every depth of parentheses. -/
def IsTidy (passed : Identifier → Prop) (p : Phrase α) : Prop := ∀ a, Tidy passed a a p.pieces

variable {passed : Identifier → Prop} {p q : Phrase α}

theorem isTidy_empty : (empty : Phrase α).IsTidy passed := fun _ => Piece.tidy_nil

theorem isTidy_keyword {text : String} (h : ∀ a, IsKeyword a a text) :
    (keyword text : Phrase α).IsTidy passed := fun a => Piece.tidy_keyword (h a)

theorem isTidy_name {x : Identifier} (h : passed x) : (name x : Phrase α).IsTidy passed :=
  fun _ => Piece.tidy_name fun _ hs => ⟨x, h, hs⟩

/-- The last segment of a name. -/
theorem isTidy_last {x : Identifier} (h : passed x) :
    (name x.last : Phrase α).IsTidy passed := by
  refine fun _ => Piece.tidy_name fun s hs => ⟨x, h, ?_⟩
  rw [List.mem_singleton.1 hs]
  exact x.base_mem

theorem isTidy_value (v : α) : (value v).IsTidy passed := fun _ => Piece.tidy_value v

theorem tidy_joined {separator : String} {a : Nat} (hk : IsKeyword a a separator)
    (hs : startsApart separator = true) (he : endsApart separator = true)
    {pss : List (List (Piece α))} (hpss : ∀ ps ∈ pss, Tidy passed a a ps) :
    Tidy passed a a (Piece.joined separator pss) := by
  cases pss with
  | nil => exact Piece.tidy_nil
  | cons ps pss =>
    obtain ⟨hps, hrest⟩ := List.forall_mem_cons.1 hpss
    clear hpss
    rw [Piece.joined]
    induction pss generalizing ps with
    | nil => simpa using hps
    | cons qs pss ih =>
      obtain ⟨hqs, hmore⟩ := List.forall_mem_cons.1 hrest
      rw [List.flatMap_cons, ← List.append_assoc]
      exact ih _ (hps.around hk hs he hqs) hmore

/-- Phrases with a separator that keeps them apart. -/
theorem isTidy_seq {separator : String} (hk : ∀ a, IsKeyword a a separator)
    (hs : startsApart separator = true) (he : endsApart separator = true)
    {items : List (Phrase α)} (h : ∀ item ∈ items, item.IsTidy passed) :
    (seq separator items).IsTidy passed := by
  intro a
  rw [pieces_seq]
  refine tidy_joined (hk a) hs he fun ps hps => ?_
  obtain ⟨item, hitem, rfl⟩ := List.mem_map.1 hps
  exact h item (List.mem_of_mem_filter hitem) a

theorem isTidy_spaced {items : List (Phrase α)} (h : ∀ item ∈ items, item.IsTidy passed) :
    (spaced items).IsTidy passed := isTidy_seq (fun _ => ⟨rfl, rfl⟩) rfl rfl h

theorem isTidy_listed {items : List (Phrase α)} (h : ∀ item ∈ items, item.IsTidy passed) :
    (listed items).IsTidy passed := isTidy_seq (fun _ => ⟨rfl, rfl⟩) rfl rfl h

theorem isTidy_parens (h : p.IsTidy passed) : p.parens.IsTidy passed := by
  intro a
  have hopen : IsKeyword a (a + 1) "(" := ⟨rfl, rfl⟩
  have hclose : IsKeyword (a + 1) a ")" := ⟨rfl, rfl⟩
  rw [pieces_parens]
  exact .led hopen rfl ((h (a + 1)).followed hclose rfl)

theorem isTidy_ledBy {text : String} (hk : ∀ a, IsKeyword a a text) (he : endsApart text = true)
    (h : p.IsTidy passed) : (ledBy text p).IsTidy passed := by
  intro a
  rw [pieces_ledBy]
  split
  · exact Piece.tidy_nil
  · exact .led (hk a) he (h a)

/-- A keyword and a phrase. -/
theorem isTidy_led {text : String} (hk : ∀ a, IsKeyword a a text) (he : endsApart text = true)
    (h : p.IsTidy passed) : (concat [.keyword text, p]).IsTidy passed := by
  intro a
  rw [pieces_concat, List.flatMap_cons, List.flatMap_cons, List.flatMap_nil, List.append_nil]
  exact .led (hk a) he (h a)

/-- A keyword between two phrases. -/
theorem isTidy_around {text : String} (h : p.IsTidy passed) (hk : ∀ a, IsKeyword a a text)
    (hs : startsApart text = true) (he : endsApart text = true) (h' : q.IsTidy passed) :
    (concat [p, .keyword text, q]).IsTidy passed := by
  intro a
  rw [pieces_concat, List.flatMap_cons, List.flatMap_cons, List.flatMap_cons, List.flatMap_nil,
    List.append_nil]
  exact (h a).around (hk a) hs he (h' a)

/-- A phrase and a list in parentheses that a keyword opens. -/
theorem isTidy_opened {text : String} (h : p.IsTidy passed)
    (hk : ∀ a, IsKeyword a (a + 1) text) (hs : startsApart text = true)
    (he : endsApart text = true) (h' : q.IsTidy passed) :
    (concat [p, .keyword text, q, .keyword ")"]).IsTidy passed := by
  intro a
  have hclose : IsKeyword (a + 1) a ")" := ⟨rfl, rfl⟩
  have hpieces : (concat [p, .keyword text, q, .keyword ")"]).pieces =
      p.pieces ++ (ofKeyword text ++ (q.pieces ++ ofKeyword ")")) := by
    simp [pieces_concat, pieces]
  rw [hpieces]
  exact (h a).around (hk a) hs he ((h' (a + 1)).followed hclose rfl)

end Phrase

end ParamSql
