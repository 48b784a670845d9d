import ParamSql.Proofs.Phrase.Text
import ParamSql.Proofs.Values.Marks

/-!
# A phrase as a tree

Writing a phrase is one walk over it with a counter, and which parts it passes over is decided by a
second one. Both come to what a reader of the tree expects: the bound values are the leaves of the
tree from left to right, and the text of a sequence is made of the texts of its items, with the
separator between those that are not empty.

Results:
* `values_eq_leaves`: no leaf is lost in the parts that are passed over.
* `text_eq_printed`: the text of a tree from the texts of its parts.
* `write_linear`: what writing a phrase adds to a query, when it is empty, and how its text depends
  on the values bound before it.
-/

namespace ParamSql.Phrase

variable {α : Type}

open Mark (numbering)

mutual

/-- The bound values in a phrase from left to right, whether their parts have text or not. -/
def leaves : Phrase α → List α
  | .keyword _ => []
  | .raw _ => []
  | .name _ => []
  | .value v => [v]
  | .seq _ items => allLeaves items

/-- The bound values in phrases, one phrase after the other. -/
def allLeaves : List (Phrase α) → List α
  | [] => []
  | item :: rest => leaves item ++ allLeaves rest

end

mutual

/-- The text of a phrase from the texts of its parts; `n` values are bound before it. -/
def printed : Nat → Phrase α → String
  | _, .keyword text => text
  | _, .raw text => text
  | _, .name x => x.sql
  | n, .value _ => "$" ++ toString (n + 1)
  | n, .seq separator items => Text.joined separator (allPrinted n items)

/-- The texts of phrases one after the other. -/
def allPrinted : Nat → List (Phrase α) → List String
  | _, [] => []
  | n, item :: rest => printed n item :: allPrinted (n + item.leaves.length) rest

end

mutual

/-- The values that are bound are the leaves: a part without text has none. -/
theorem values_eq_leaves : ∀ p : Phrase α, p.values = p.leaves
  | .keyword text => values_keyword text
  | .raw text => values_raw text
  | .name _ => rfl
  | .value _ => rfl
  | .seq separator items => by
    rw [values_seq, leaves]
    exact flatMap_values_eq items

theorem flatMap_values_eq : ∀ items : List (Phrase α), items.flatMap values = allLeaves items
  | [] => rfl
  | item :: rest => by
    rw [List.flatMap_cons, allLeaves, values_eq_leaves item, flatMap_values_eq rest]

end

mutual

theorem text_eq_printed : ∀ (n : Nat) (p : Phrase α), p.text n = p.printed n
  | n, .keyword text => text_keyword n text
  | n, .raw text => text_raw n text
  | n, .name x => text_name n x
  | n, .value v => text_value n v
  | n, .seq separator items => by rw [text_seq, printed, texts_eq_printed n items]

theorem texts_eq_printed : ∀ (n : Nat) (items : List (Phrase α)), texts n items = allPrinted n items
  | _, [] => rfl
  | n, item :: rest => by
    rw [texts, allPrinted, text_eq_printed n item, texts_eq_printed _ rest, values_eq_leaves]

end

/-- Behind `m` bound values, a text has its own marks with the numbers raised by `m`. -/
theorem text_marks (m : Nat) (p : Phrase α) :
    p.text m = String.ofList (((p.marks 0).map (Mark.raise m)).flatMap Mark.chars) := by
  rw [← marks_add, marks, spell, Piece.chars_marks]
  rfl

/-- Writing a phrase adds its text and its leaves to a query, it counts as empty exactly if it has no
text, and its text is the same behind any number of bound values, with the numbers of its own
placeholders raised by how many these are. -/
theorem write_linear (p : Phrase α) :
    (∀ q : Query α, p.write q = ⟨q.sql ++ p.printed q.values.length, q.values ++ p.leaves⟩) ∧
      p.query = ⟨p.printed 0, p.leaves⟩ ∧
      (p.isEmpty = true ↔ p.query.sql = "") ∧
      ∃ marks : List Mark, numbering marks = List.range' 1 p.leaves.length ∧
        ∀ m, p.printed m = String.ofList ((marks.map (Mark.raise m)).flatMap Mark.chars) := by
  have hquery : p.query = ⟨p.printed 0, p.leaves⟩ := by
    rw [query_text, text_eq_printed, values_eq_leaves]
  refine ⟨fun q => ?_, hquery, ?_, p.marks 0, ?_, fun m => ?_⟩
  · rw [write_eq_extend, ← text_eq_printed, ← values_eq_leaves]
    rfl
  · rw [hquery, ← text_eq_printed, text_eq_empty_iff]
  · rw [numbering_marks, Nat.zero_add, values_eq_leaves]
  · rw [← text_eq_printed, text_marks]

end ParamSql.Phrase
