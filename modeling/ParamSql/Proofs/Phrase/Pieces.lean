import ParamSql.Phrase

/-!
# The pieces of a phrase

A phrase is written as its leaves from left to right, with separators between the items that have
text. `Phrase.pieces` lists them; what is said about a text is said about its pieces one by one,
with the number of values that are bound before each (`Piece.spell`).

Results:
* `write_eq_extend`: writing a phrase adds its pieces to the query.
* `values_seq`: a sequence binds the values of its items, one item after the other.
* `query_eq`: the text and the values of a phrase on its own.
* `chars_eq_nil_iff`: a phrase counts as empty exactly if it has no text.
-/

namespace ParamSql

variable {α β : Type}

/-- A leaf of a phrase. -/
inductive Piece (α : Type) where
  | keyword (text : String)
  | raw (text : String)
  | name (x : Identifier)
  | value (v : α)

namespace Piece

/-- The value that a piece binds. -/
def value? : Piece α → Option α
  | .value v => some v
  | _ => none

/-- The values that pieces bind, in order. -/
def values (ps : List (Piece α)) : List α := ps.filterMap value?

/-- How many values a piece binds. -/
def count (p : Piece α) : Nat := (values [p]).length

/-- A view of pieces, one after the other; `n` values are bound before them. -/
def spell (view : Nat → Piece α → List β) : Nat → List (Piece α) → List β
  | _, [] => []
  | n, p :: ps => view n p ++ spell view (n + p.count) ps

/-- The characters of a piece; a value is written as the placeholder with the next number. -/
def chars (n : Nat) : Piece α → List Char
  | .keyword text => text.toList
  | .raw text => text.toList
  | .name x => x.chars
  | .value _ => '$' :: Nat.toDigits 10 (n + 1)

/-- Words of the language as pieces. -/
def ofKeyword (text : String) : List (Piece α) := if text = "" then [] else [.keyword text]

/-- Text of the caller's as pieces. -/
def ofRaw (text : String) : List (Piece α) := if text = "" then [] else [.raw text]

/-- Lists of pieces with a separator. -/
def joined (separator : String) : List (List (Piece α)) → List (Piece α)
  | [] => []
  | ps :: rest => ps ++ rest.flatMap (ofKeyword separator ++ ·)

theorem joined_empty (pss : List (List (Piece α))) : joined "" pss = pss.flatten := by
  cases pss with
  | nil => rfl
  | cons ps rest => simp [joined, ofKeyword, List.flatMap_id']

theorem joined_eq_nil_iff (separator : String) {pss : List (List (Piece α))}
    (h : ∀ ps ∈ pss, ps ≠ []) : joined separator pss = [] ↔ pss = [] := by
  cases pss with
  | nil => simp [joined]
  | cons ps rest => simp [joined, h ps (by simp)]

theorem mem_joined {separator : String} {pss : List (List (Piece α))} {q : Piece α}
    (h : q ∈ joined separator pss) : q ∈ ofKeyword separator ∨ ∃ ps ∈ pss, q ∈ ps := by
  cases pss with
  | nil => simp [joined] at h
  | cons ps rest =>
    simp only [joined, List.mem_append, List.mem_flatMap] at h
    rcases h with h | ⟨ps', hps', h | h⟩
    · exact .inr ⟨ps, by simp, h⟩
    · exact .inl h
    · exact .inr ⟨ps', by simp [hps'], h⟩

theorem mem_joined_of_mem {separator : String} {pss : List (List (Piece α))} {ps : List (Piece α)}
    {q : Piece α} (hps : ps ∈ pss) (hq : q ∈ ps) : q ∈ joined separator pss := by
  cases pss with
  | nil => cases hps
  | cons first rest =>
    rw [joined, List.mem_append, List.mem_flatMap]
    rcases List.mem_cons.1 hps with rfl | hrest
    · exact .inl hq
    · exact .inr ⟨ps, hrest, List.mem_append_right _ hq⟩

@[simp] theorem values_nil : values ([] : List (Piece α)) = [] := rfl

@[simp] theorem values_append (ps qs : List (Piece α)) :
    values (ps ++ qs) = values ps ++ values qs := List.filterMap_append

@[simp] theorem values_keyword (text : String) (ps : List (Piece α)) :
    values (.keyword text :: ps) = values ps := rfl

@[simp] theorem values_raw (text : String) (ps : List (Piece α)) :
    values (.raw text :: ps) = values ps := rfl

@[simp] theorem values_name (x : Identifier) (ps : List (Piece α)) :
    values (.name x :: ps) = values ps := rfl

@[simp] theorem values_value (v : α) (ps : List (Piece α)) :
    values (.value v :: ps) = v :: values ps := rfl

@[simp] theorem values_ofKeyword (text : String) :
    values (ofKeyword text : List (Piece α)) = [] := by
  unfold ofKeyword
  split <;> rfl

@[simp] theorem values_ofRaw (text : String) : values (ofRaw text : List (Piece α)) = [] := by
  unfold ofRaw
  split <;> rfl

@[simp] theorem spell_nil (view : Nat → Piece α → List β) (n : Nat) : spell view n [] = [] := rfl

@[simp] theorem spell_singleton (view : Nat → Piece α → List β) (n : Nat) (p : Piece α) :
    spell view n [p] = view n p := by
  simp [spell]

theorem spell_append (view : Nat → Piece α → List β) (n : Nat) (ps qs : List (Piece α)) :
    spell view n (ps ++ qs) = spell view n ps ++ spell view (n + (values ps).length) qs := by
  induction ps generalizing n with
  | nil => rfl
  | cons p ps ih =>
    have h : values (p :: ps) = values [p] ++ values ps := values_append [p] ps
    rw [List.cons_append, spell, spell, ih, List.append_assoc, h, List.length_append, count,
      Nat.add_assoc]

@[simp] theorem chars_ofKeyword (n : Nat) (text : String) :
    spell chars n (ofKeyword text : List (Piece α)) = text.toList := by
  unfold ofKeyword
  split
  · rename_i h
    rw [h]
    rfl
  · exact spell_singleton chars n _

theorem values_joined (separator : String) (pss : List (List (Piece α))) :
    values (joined separator pss) = pss.flatMap values := by
  cases pss with
  | nil => rfl
  | cons ps rest =>
    rw [joined, values_append, List.flatMap_cons]
    congr 1
    induction rest with
    | nil => rfl
    | cons qs rest ih => simp [ih]

theorem chars_ne_nil_of_mem_ofKeyword (n : Nat) {text : String} {q : Piece α}
    (h : q ∈ ofKeyword text) : q.chars n ≠ [] := by
  unfold ofKeyword at h
  split at h
  · simp at h
  · rename_i ht
    obtain rfl := List.mem_singleton.1 h
    simpa [chars] using ht

@[simp] theorem chars_ofRaw (n : Nat) (text : String) :
    spell chars n (ofRaw text : List (Piece α)) = text.toList := by
  unfold ofRaw
  split
  · rename_i h
    rw [h]
    rfl
  · exact spell_singleton chars n _

end Piece

/-! ## Pieces of a phrase -/

namespace Phrase

mutual

/-- The pieces of a phrase, from left to right. -/
def pieces : Phrase α → List (Piece α)
  | .keyword text => Piece.ofKeyword text
  | .raw text => Piece.ofRaw text
  | .name x => [.name x]
  | .value v => [.value v]
  | .seq separator items => Piece.joined separator (itemPieces items)

/-- The pieces of each phrase of a list that has text. -/
def itemPieces : List (Phrase α) → List (List (Piece α))
  | [] => []
  | item :: rest => if isEmpty item then itemPieces rest else pieces item :: itemPieces rest

end

/-- The values that a phrase binds, in order. -/
def values (p : Phrase α) : List α := Piece.values p.pieces

/-- A view of a phrase, piece by piece; `n` values are bound before it. -/
def spell (view : Nat → Piece α → List β) (n : Nat) (p : Phrase α) : List β :=
  Piece.spell view n p.pieces

/-- The text of a phrase; `n` values are bound before it. -/
def chars (n : Nat) (p : Phrase α) : List Char := p.spell Piece.chars n

theorem itemPieces_eq (items : List (Phrase α)) :
    itemPieces items = (items.filter fun item => !item.isEmpty).map pieces := by
  induction items with
  | nil => rfl
  | cons item rest ih =>
    rw [itemPieces, ih]
    cases h : item.isEmpty <;> simp [h]

theorem allEmpty_eq (items : List (Phrase α)) : allEmpty items = items.all isEmpty := by
  induction items with
  | nil => rfl
  | cons item rest ih => rw [allEmpty, ih, List.all_cons]

theorem isEmpty_seq (separator : String) (items : List (Phrase α)) :
    (seq separator items).isEmpty = items.all isEmpty := by
  rw [isEmpty, allEmpty_eq]

theorem pieces_seq (separator : String) (items : List (Phrase α)) :
    (seq separator items).pieces =
      Piece.joined separator ((items.filter fun item => !item.isEmpty).map pieces) := by
  rw [pieces, itemPieces_eq]

theorem allEmpty_iff (items : List (Phrase α)) : allEmpty items = true ↔ itemPieces items = [] := by
  rw [allEmpty_eq, itemPieces_eq]
  simp

mutual

theorem pieces_eq_nil_iff : ∀ p : Phrase α, p.pieces = [] ↔ p.isEmpty = true
  | .keyword text => by simp [pieces, Piece.ofKeyword, isEmpty]
  | .raw text => by simp [pieces, Piece.ofRaw, isEmpty]
  | .name x => by simp [pieces, isEmpty]
  | .value v => by simp [pieces, isEmpty]
  | .seq separator items => by
    rw [isEmpty, allEmpty_iff, pieces]
    exact Piece.joined_eq_nil_iff separator (ne_nil_of_mem_itemPieces items)

theorem ne_nil_of_mem_itemPieces : ∀ (items : List (Phrase α)),
    ∀ ps ∈ itemPieces items, ps ≠ []
  | [] => by simp [itemPieces]
  | item :: rest => by
    rw [itemPieces]
    cases h : item.isEmpty with
    | true => simpa using ne_nil_of_mem_itemPieces rest
    | false =>
      have hi : item.pieces ≠ [] := fun e => by simp [(pieces_eq_nil_iff item).1 e] at h
      simpa [hi] using ne_nil_of_mem_itemPieces rest

end

theorem flatten_itemPieces (items : List (Phrase α)) :
    (itemPieces items).flatten = items.flatMap pieces := by
  induction items with
  | nil => rfl
  | cons item rest ih =>
    rw [itemPieces, List.flatMap_cons, ← ih]
    split
    · rename_i he
      rw [(pieces_eq_nil_iff item).2 he, List.nil_append]
    · rw [List.flatten_cons]

/-- Phrases one after the other have their pieces one after the other. -/
theorem pieces_concat (items : List (Phrase α)) :
    (concat items).pieces = items.flatMap pieces := by
  rw [concat, pieces, Piece.joined_empty, flatten_itemPieces]

theorem pieces_parens (p : Phrase α) :
    p.parens.pieces = .keyword "(" :: (p.pieces ++ [.keyword ")"]) := by
  simp [parens, pieces_concat, pieces, Piece.ofKeyword]

theorem pieces_ledBy (keyword : String) (p : Phrase α) :
    (ledBy keyword p).pieces =
      if p.isEmpty then [] else Piece.ofKeyword keyword ++ p.pieces := by
  unfold ledBy
  split
  · rfl
  · simp [pieces_concat, pieces]

/-- Behind an item with text, every further one with text stands behind a separator. -/
theorem pieces_seq_cons (separator : String) {first : Phrase α} (h : first.isEmpty = false)
    (rest : List (Phrase α)) : (seq separator (first :: rest)).pieces =
      first.pieces ++ rest.flatMap fun p => (ledBy separator p).pieces := by
  have hrest : (itemPieces rest).flatMap (Piece.ofKeyword separator ++ ·) =
      rest.flatMap fun p => (ledBy separator p).pieces := by
    induction rest with
    | nil => rfl
    | cons p rest ih =>
      rw [itemPieces, List.flatMap_cons, pieces_ledBy, ← ih]
      split <;> simp
  rw [pieces, itemPieces, h, ← hrest]
  rfl

theorem values_of_isEmpty {p : Phrase α} (h : p.isEmpty = true) : p.values = [] := by
  rw [values, (pieces_eq_nil_iff p).2 h]
  rfl

theorem values_parens (p : Phrase α) : p.parens.values = p.values := by
  rw [values, pieces_parens]
  simp [values]

theorem values_seq (separator : String) (items : List (Phrase α)) :
    (seq separator items).values = items.flatMap values := by
  rw [values, pieces, Piece.values_joined]
  induction items with
  | nil => rfl
  | cons item rest ih =>
    rw [itemPieces, List.flatMap_cons, ← ih]
    split
    · rename_i he
      rw [values_of_isEmpty he, List.nil_append]
    · rfl

theorem values_keyword (text : String) : (keyword text : Phrase α).values = [] :=
  Piece.values_ofKeyword text

theorem values_raw (text : String) : (raw text : Phrase α).values = [] := Piece.values_ofRaw text

theorem values_concat (items : List (Phrase α)) :
    (concat items).values = items.flatMap values := values_seq "" items

theorem values_spaced (items : List (Phrase α)) :
    (spaced items).values = items.flatMap values := values_seq " " items

theorem values_listed (items : List (Phrase α)) :
    (listed items).values = items.flatMap values := values_seq ", " items

theorem values_ledBy (word : String) (p : Phrase α) : (ledBy word p).values = p.values := by
  rw [values, pieces_ledBy]
  split
  · rename_i h
    exact (values_of_isEmpty h).symm
  · rw [Piece.values_append, Piece.values_ofKeyword]
    rfl

mutual

/-- Every piece has text. -/
theorem chars_ne_nil_of_mem_pieces (n : Nat) : ∀ (p : Phrase α), ∀ q ∈ p.pieces, q.chars n ≠ []
  | .keyword text, q, hq => Piece.chars_ne_nil_of_mem_ofKeyword n hq
  | .raw text, q, hq => by
    unfold pieces Piece.ofRaw at hq
    split at hq
    · simp at hq
    · rename_i h
      obtain rfl := List.mem_singleton.1 hq
      simpa [Piece.chars] using h
  | .name x, q, hq => by
    obtain rfl := List.mem_singleton.1 hq
    exact x.chars_ne_nil
  | .value v, q, hq => by
    obtain rfl := List.mem_singleton.1 hq
    simp [Piece.chars]
  | .seq separator items, q, hq => by
    rw [pieces] at hq
    rcases Piece.mem_joined hq with hq | ⟨ps, hps, hq⟩
    · exact Piece.chars_ne_nil_of_mem_ofKeyword n hq
    · exact chars_ne_nil_of_mem_itemPieces n items ps hps q hq

theorem chars_ne_nil_of_mem_itemPieces (n : Nat) : ∀ (items : List (Phrase α)),
    ∀ ps ∈ itemPieces items, ∀ q ∈ ps, q.chars n ≠ []
  | [], ps, hps, _, _ => by simp [itemPieces] at hps
  | item :: rest, ps, hps, q, hq => by
    rw [itemPieces] at hps
    split at hps
    · exact chars_ne_nil_of_mem_itemPieces n rest ps hps q hq
    · rcases List.mem_cons.1 hps with rfl | hps
      · exact chars_ne_nil_of_mem_pieces n item q hq
      · exact chars_ne_nil_of_mem_itemPieces n rest ps hps q hq

end

theorem chars_eq_nil_iff (n : Nat) (p : Phrase α) : p.chars n = [] ↔ p.isEmpty = true := by
  rw [← pieces_eq_nil_iff]
  constructor
  · intro h
    cases hp : p.pieces with
    | nil => rfl
    | cons q qs =>
      have hq := chars_ne_nil_of_mem_pieces n p q (by simp [hp])
      simp [chars, spell, hp, Piece.spell, hq] at h
  · intro h
    simp [chars, spell, h]

end Phrase

/-! ## Writing -/

namespace Query

/-- The query with further pieces at the end. -/
def extend (q : Query α) (ps : List (Piece α)) : Query α :=
  ⟨q.sql ++ String.ofList (Piece.spell Piece.chars q.values.length ps),
    q.values ++ Piece.values ps⟩

@[simp] theorem extend_nil (q : Query α) : q.extend [] = q := by
  simp [extend]

theorem extend_append (q : Query α) (ps qs : List (Piece α)) :
    q.extend (ps ++ qs) = (q.extend ps).extend qs := by
  simp [extend, Piece.spell_append, String.ofList_append, String.append_assoc]

theorem extend_ofKeyword (q : Query α) (text : String) :
    q.extend (Piece.ofKeyword text) = q.append text := by
  simp [extend, append]

theorem extend_ofRaw (q : Query α) (text : String) :
    q.extend (Piece.ofRaw text) = q.append text := by
  simp [extend, append]

theorem extend_name (q : Query α) (x : Identifier) :
    q.extend [.name x] = q.append x.sql := by
  simp [extend, append, Piece.chars, Identifier.sql]

theorem extend_value (q : Query α) (v : α) : q.extend [.value v] = q.bind v := by
  have h : String.ofList ('$' :: Nat.toDigits 10 (q.values.length + 1)) =
      "$" ++ toString (q.values.length + 1) := by
    rw [String.ofList_cons, Nat.toString_eq_ofList_toDigits]
    rfl
  simp only [extend, bind, Piece.spell_singleton, Piece.chars, h, String.append_assoc,
    Piece.values_value, Piece.values_nil]

end Query

namespace Phrase

mutual

/-- Writing a phrase adds its pieces. -/
theorem write_eq_extend : ∀ (p : Phrase α) (q : Query α), p.write q = q.extend p.pieces
  | .keyword text, q => (q.extend_ofKeyword text).symm
  | .raw text, q => (q.extend_ofRaw text).symm
  | .name x, q => (q.extend_name x).symm
  | .value v, q => (q.extend_value v).symm
  | .seq separator items, q => by
    rw [write, writeItems_eq_extend separator items true q, pieces]
    rfl

theorem writeItems_eq_extend (separator : String) : ∀ (items : List (Phrase α)) (first : Bool)
    (q : Query α), writeItems separator first items q =
      q.extend (if first then Piece.joined separator (itemPieces items)
        else (itemPieces items).flatMap (Piece.ofKeyword separator ++ ·))
  | [], first, q => by cases first <;> simp [writeItems, itemPieces, Piece.joined]
  | item :: rest, first, q => by
    rw [writeItems, itemPieces]
    split
    · exact writeItems_eq_extend separator rest first q
    · rw [writeItems_eq_extend separator rest false, write_eq_extend item]
      cases first with
      | true => simp [Piece.joined, Query.extend_append]
      | false => simp [Query.extend_append, Query.extend_ofKeyword]

end

/-- The query of a phrase is its text with nothing bound before it, and its values. -/
theorem query_eq (p : Phrase α) : p.query = ⟨String.ofList (p.chars 0), p.values⟩ := by
  rw [query, write_eq_extend]
  simp [Query.extend, Query.empty, chars, values, spell]

end Phrase

end ParamSql
