import ParamSql.Proofs.Reading.Pieces
import ParamSql.Template

/-!
# What a template says

A template is one condition in the caller's words: its texts, with a bound value in the place of
each placeholder.

Results:
* `phrase?_eq_some_iff`: a template is filled exactly if it has a placeholder for each value.
* `parts_phrase?`, `isWords_phrase?`: what is written for a template, and nothing else.
* `isEmpty_phrase?`: only the empty template has no text.
-/

namespace ParamSql.Template

variable {α : Type}

/-- A text of the caller's as a part of a condition. -/
def textPart (cs : List Char) : List (Part α) :=
  if cs = [] then [] else [.text (String.ofList cs)]

/-- The parts of a template: its texts, with a value in the place of each placeholder. -/
def parts (sql : String) (values : List α) : List (Part α) :=
  textPart (read sql.toList).1 ++
    (values.zip (read sql.toList).2).flatMap fun filled => .value filled.1 :: textPart filled.2

theorem phrase?_eq_some_iff {sql : String} {values : List α} {phrase : Phrase α} :
    phrase? sql values = some phrase ↔ placeholders sql.toList = values.length ∧
      phrase = .concat (.raw (String.ofList (read sql.toList).1) ::
        fill values (read sql.toList).2) := by
  simp only [phrase?, placeholders]
  split
  · rename_i h
    simp [h, eq_comm]
  · rename_i h
    simp [h]

theorem parts_ofRaw (cs : List Char) :
    (Piece.ofRaw (String.ofList cs) : List (Piece α)).filterMap Piece.part? = textPart cs := by
  unfold Piece.ofRaw textPart
  by_cases h : cs = []
  · simp [h]
  · simp [h, Piece.part?]

theorem parts_fill (values : List α) (more : List (List Char)) :
    ((fill values more).flatMap Phrase.pieces).filterMap Piece.part? =
      (values.zip more).flatMap fun filled => .value filled.1 :: textPart filled.2 := by
  induction values generalizing more with
  | nil => rfl
  | cons v values ih =>
    cases more with
    | nil => rfl
    | cons text more =>
      simp only [fill, List.flatMap_cons, List.filterMap_append, Phrase.pieces, ih, parts_ofRaw,
        List.zip_cons_cons]
      rfl

theorem parts_phrase? {sql : String} {values : List α} {phrase : Phrase α}
    (h : phrase? sql values = some phrase) :
    phrase.pieces.filterMap Piece.part? = parts sql values := by
  obtain ⟨-, rfl⟩ := phrase?_eq_some_iff.1 h
  rw [Phrase.pieces_concat, List.flatMap_cons, List.filterMap_append, parts_fill, Phrase.pieces,
    parts_ofRaw, parts]

theorem isWords_ofRaw (text : String) : ∀ q ∈ (Piece.ofRaw text : List (Piece α)), q.IsWords := by
  unfold Piece.ofRaw
  split
  · simp
  · simp [Piece.IsWords]

theorem isWords_fill (values : List α) (more : List (List Char)) :
    ∀ q ∈ (fill values more).flatMap Phrase.pieces, q.IsWords := by
  induction values generalizing more with
  | nil => simp [fill]
  | cons v values ih =>
    cases more with
    | nil => simp [fill]
    | cons text more =>
      intro q hq
      simp only [fill, List.flatMap_cons, Phrase.pieces, List.mem_append, List.mem_singleton] at hq
      rcases hq with rfl | hq | hq
      · trivial
      · exact isWords_ofRaw _ q hq
      · exact ih more q hq

/-- A template is written in the caller's words alone. -/
theorem isWords_phrase? {sql : String} {values : List α} {phrase : Phrase α}
    (h : phrase? sql values = some phrase) : ∀ q ∈ phrase.pieces, q.IsWords := by
  obtain ⟨-, rfl⟩ := phrase?_eq_some_iff.1 h
  intro q hq
  rw [Phrase.pieces_concat, List.flatMap_cons, List.mem_append] at hq
  rcases hq with hq | hq
  · exact isWords_ofRaw _ q hq
  · exact isWords_fill _ _ q hq

theorem read_eq_nil_iff {cs : List Char} : read cs = ([], []) ↔ cs = [] := by
  unfold read
  split <;> simp

theorem all_isEmpty_fill {values : List α} {more : List (List Char)}
    (h : more.length = values.length) :
    (fill values more).all Phrase.isEmpty = true ↔ more = [] := by
  cases more with
  | nil => cases values <;> simp [fill]
  | cons text more =>
    cases values with
    | nil => simp at h
    | cons v values => simp [fill, Phrase.isEmpty]

/-- A template has no text exactly if it is the empty one. -/
theorem isEmpty_phrase? {sql : String} {values : List α} {phrase : Phrase α}
    (h : phrase? sql values = some phrase) : phrase.isEmpty = true ↔ sql = "" := by
  obtain ⟨harity, rfl⟩ := phrase?_eq_some_iff.1 h
  have hraw (cs : List Char) : (Phrase.raw (String.ofList cs) : Phrase α).isEmpty = true ↔
      cs = [] := by
    simp [Phrase.isEmpty]
  rw [Phrase.concat, Phrase.isEmpty_seq, List.all_cons, Bool.and_eq_true, hraw,
    all_isEmpty_fill harity,
    ← Prod.mk.injEq, read_eq_nil_iff, String.toList_eq_nil_iff]

end ParamSql.Template
