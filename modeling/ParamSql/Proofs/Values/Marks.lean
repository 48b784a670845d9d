import ParamSql.Proofs.Phrase.Pieces

/-!
# Placeholders in a text

The text of a phrase is seen as marks: text as it is, and numbered placeholders. Behind `m` bound
values a phrase has the marks that it has on its own, with every number raised by `m`. A phrase
`Hosts` another one if the other stands in it as a whole, between parts that bind certain values.

Results:
* `Phrase.sql_marks`: the marks are the text that is written.
* `Phrase.numbering_marks`: the placeholders are numbered from left to right, one for each value.
* `Phrase.marks_add`: the marks behind further values.
* `Hosts.seq`, `Hosts.trans`: a phrase in a sequence, and in a part of another phrase.
* `Hosts.marks_eq`: the marks of a phrase within the one that hosts it.
-/

namespace ParamSql

variable {α : Type}

/-- A part of a text: characters as they are, or the placeholder with a number. -/
inductive Mark where
  | text (cs : List Char)
  | placeholder (number : Nat)
  deriving DecidableEq, Repr

namespace Mark

/-- The characters of a mark. -/
def chars : Mark → List Char
  | .text cs => cs
  | .placeholder number => '$' :: Nat.toDigits 10 number

/-- The mark with its number raised. -/
def raise (m : Nat) : Mark → Mark
  | .text cs => .text cs
  | .placeholder number => .placeholder (number + m)

/-- The number of a placeholder. -/
def number? : Mark → Option Nat
  | .text _ => none
  | .placeholder number => some number

/-- The numbers of the placeholders, from left to right. -/
def numbering (marks : List Mark) : List Nat := marks.filterMap number?

theorem numbering_append (first second : List Mark) :
    numbering (first ++ second) = numbering first ++ numbering second := List.filterMap_append

end Mark

open Mark (numbering)

namespace Piece

/-- A piece as a mark; `n` values are bound before it. -/
def mark (n : Nat) : Piece α → List Mark
  | .keyword text => [.text text.toList]
  | .raw text => [.text text.toList]
  | .name x => [.text x.chars]
  | .value _ => [.placeholder (n + 1)]

theorem chars_mark (n : Nat) (p : Piece α) : (p.mark n).flatMap Mark.chars = p.chars n := by
  cases p <;> exact List.append_nil _

theorem chars_marks (ps : List (Piece α)) (n : Nat) :
    (spell mark n ps).flatMap Mark.chars = spell chars n ps := by
  induction ps generalizing n with
  | nil => rfl
  | cons p ps ih => rw [spell, spell, List.flatMap_append, chars_mark, ih]

theorem mark_add (n m : Nat) (p : Piece α) : p.mark (n + m) = (p.mark n).map (Mark.raise m) := by
  cases p with
  | value v =>
    rw [mark, mark, List.map_singleton, Mark.raise, Nat.add_right_comm]
  | _ => rfl

theorem marks_add (m : Nat) (ps : List (Piece α)) (n : Nat) :
    spell mark (n + m) ps = (spell mark n ps).map (Mark.raise m) := by
  induction ps generalizing n with
  | nil => rfl
  | cons p ps ih => rw [spell, spell, List.map_append, mark_add, Nat.add_right_comm, ih]

theorem numbering_mark (n : Nat) (p : Piece α) :
    numbering (p.mark n) = List.range' (n + 1) p.count := by
  cases p <;> rfl

theorem numbering_marks (ps : List (Piece α)) (n : Nat) :
    numbering (spell mark n ps) = List.range' (n + 1) (values ps).length := by
  induction ps generalizing n with
  | nil => rfl
  | cons p ps ih =>
    have hcount : (values (p :: ps)).length = p.count + (values ps).length := by
      rw [← List.singleton_append, values_append, List.length_append, count]
    rw [spell, Mark.numbering_append, numbering_mark, ih, hcount, Nat.add_right_comm,
      List.range'_append_1]

/-- Lists of pieces in two parts: between them is nothing, or a separator. -/
theorem joined_append (separator : String) (first second : List (List (Piece α))) :
    ∃ between, values between = [] ∧
      joined separator (first ++ second) =
        joined separator first ++ between ++ joined separator second := by
  cases first with
  | nil => exact ⟨[], rfl, rfl⟩
  | cons ps rest =>
    cases second with
    | nil => exact ⟨[], rfl, by simp [joined]⟩
    | cons qs more =>
      refine ⟨ofKeyword separator, values_ofKeyword separator, ?_⟩
      simp [joined]

end Piece

namespace Phrase

/-- The text of a phrase as marks; `n` values are bound before it. -/
def marks (n : Nat) (p : Phrase α) : List Mark := p.spell Piece.mark n

/-- The marks are the text that is written. -/
theorem sql_marks (p : Phrase α) :
    p.query.sql = String.ofList ((p.marks 0).flatMap Mark.chars) := by
  rw [query_eq, marks, spell, Piece.chars_marks]
  rfl

/-- The placeholders are numbered from left to right, one for each value. -/
theorem numbering_marks (p : Phrase α) (n : Nat) :
    numbering (p.marks n) = List.range' (n + 1) p.values.length := Piece.numbering_marks p.pieces n

/-- Behind further values the numbers are raised by how many they are. -/
theorem marks_add (p : Phrase α) (m : Nat) : p.marks m = (p.marks 0).map (Mark.raise m) := by
  rw [marks, spell, ← Nat.zero_add m, Piece.marks_add, Nat.zero_add]
  rfl

/-- The inner phrase stands in this one as a whole, behind and before parts that bind these
values. -/
def Hosts (p inner : Phrase α) (before after : List α) : Prop :=
  ∃ head tail, p.pieces = head ++ inner.pieces ++ tail ∧ Piece.values head = before ∧
    Piece.values tail = after

namespace Hosts

/-- A phrase hosts itself. -/
theorem refl (p : Phrase α) : p.Hosts p [] [] := ⟨[], [], by simp, rfl, rfl⟩

theorem trans {p q inner : Phrase α} {before after before' after' : List α}
    (h : p.Hosts q before after) (h' : q.Hosts inner before' after') :
    p.Hosts inner (before ++ before') (after' ++ after) := by
  obtain ⟨head, tail, hp, rfl, rfl⟩ := h
  obtain ⟨head', tail', hq, rfl, rfl⟩ := h'
  refine ⟨head ++ head', tail' ++ tail, ?_, Piece.values_append _ _, Piece.values_append _ _⟩
  simp only [hp, hq, List.append_assoc]

/-- An item of a sequence, with text or without. -/
theorem seq (separator : String) (before : List (Phrase α)) (inner : Phrase α)
    (after : List (Phrase α)) : (Phrase.seq separator (before ++ inner :: after)).Hosts inner
      (before.flatMap values) (after.flatMap values) := by
  have hvalues (items : List (Phrase α)) :
      Piece.values (Piece.joined separator (itemPieces items)) = items.flatMap values :=
    values_seq separator items
  have hitems : itemPieces (before ++ inner :: after) =
      itemPieces before ++ (itemPieces [inner] ++ itemPieces after) := by
    simp only [itemPieces_eq, ← List.map_append, ← List.filter_append, List.singleton_append]
  have hinner : Piece.joined separator (itemPieces [inner]) = inner.pieces := by
    rw [itemPieces]
    split
    · rename_i h
      exact ((pieces_eq_nil_iff inner).2 h).symm
    · simp [itemPieces, Piece.joined]
  obtain ⟨left, hleft, hfirst⟩ := Piece.joined_append separator (itemPieces before)
    (itemPieces [inner] ++ itemPieces after)
  obtain ⟨right, hright, hsecond⟩ := Piece.joined_append separator (itemPieces [inner])
    (itemPieces after)
  refine ⟨Piece.joined separator (itemPieces before) ++ left,
    right ++ Piece.joined separator (itemPieces after), ?_, ?_, ?_⟩
  · rw [pieces, hitems, hfirst, hsecond, hinner]
    simp only [List.append_assoc]
  · rw [Piece.values_append, hleft, hvalues, List.append_nil]
  · rw [Piece.values_append, hright, hvalues, List.nil_append]

/-- An item among items with these values. -/
theorem spaced (before : List (Phrase α)) (inner : Phrase α) (after : List (Phrase α))
    {first last : List α} (hbefore : before.flatMap values = first)
    (hafter : after.flatMap values = last) :
    (Phrase.spaced (before ++ inner :: after)).Hosts inner first last := by
  rw [← hbefore, ← hafter]
  exact seq " " before inner after

section

variable {p inner : Phrase α} {before after : List α} (h : p.Hosts inner before after)

include h

theorem values_eq : p.values = before ++ inner.values ++ after := by
  obtain ⟨head, tail, hp, rfl, rfl⟩ := h
  rw [values, hp, Piece.values_append, Piece.values_append]
  rfl

/-- Within the phrase the inner one has its own marks, raised by the values before it; the numbers
before and behind it are those of the values before and behind it. -/
theorem marks_eq : ∃ head tail,
    p.marks 0 = head ++ (inner.marks 0).map (Mark.raise before.length) ++ tail ∧
      numbering head = List.range' 1 before.length ∧
      numbering tail = List.range' (before.length + inner.values.length + 1) after.length := by
  obtain ⟨head, tail, hp, rfl, rfl⟩ := h
  refine ⟨Piece.spell Piece.mark 0 head, Piece.spell Piece.mark
    ((Piece.values head).length + inner.values.length) tail, ?_, ?_, Piece.numbering_marks ..⟩
  · rw [← marks_add, marks, marks, spell, spell, hp, Piece.spell_append, Piece.spell_append,
      Piece.values_append, List.length_append, Nat.zero_add, Nat.zero_add]
    rfl
  · rw [Piece.numbering_marks, Nat.zero_add]

end

end Hosts

end Phrase

end ParamSql
