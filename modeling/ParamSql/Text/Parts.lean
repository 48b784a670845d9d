/-!
# Parts of a text between separators

Results:
* `parts_of_notMem`: a text without separator is one part.
* `parts_append`: a separator ends a part, and what follows is taken apart on its own.
* `intercalate_parts`: the parts with their separators are the text.
-/

namespace ParamSql.Text

/-- The parts of a text between separators; there is always one. -/
def parts (separator : Char) : List Char → List (List Char)
  | [] => [[]]
  | c :: rest =>
    if c = separator then [] :: parts separator rest
    else
      match parts separator rest with
      | part :: more => (c :: part) :: more
      | [] => [[c]]

theorem parts_ne_nil (separator : Char) (cs : List Char) : parts separator cs ≠ [] := by
  cases cs with
  | nil => simp [parts]
  | cons c rest =>
    rw [parts]
    split
    · simp
    · split <;> simp

theorem parts_of_notMem {separator : Char} {cs : List Char} (h : separator ∉ cs) :
    parts separator cs = [cs] := by
  induction cs with
  | nil => rfl
  | cons c rest ih =>
    rw [List.mem_cons, not_or] at h
    simp [parts, Ne.symm h.1, ih h.2]

theorem parts_append {separator : Char} {cs : List Char} (h : separator ∉ cs) (rest : List Char) :
    parts separator (cs ++ separator :: rest) = cs :: parts separator rest := by
  induction cs with
  | nil => simp [parts]
  | cons c cs ih =>
    rw [List.mem_cons, not_or] at h
    simp [parts, Ne.symm h.1, ih h.2]

/-- The parts with their separators are the text. -/
theorem intercalate_parts (separator : Char) (cs : List Char) :
    [separator].intercalate (parts separator cs) = cs := by
  induction cs with
  | nil => rfl
  | cons c rest ih =>
    rw [parts]
    obtain ⟨part, more, h⟩ := List.exists_cons_of_ne_nil (parts_ne_nil separator rest)
    rw [h] at ih ⊢
    split
    · rename_i hc
      subst hc
      rw [List.intercalate_cons_cons, ih]
      rfl
    · cases more with
      | nil => simpa using ih
      | cons next more =>
        dsimp only
        rw [List.intercalate_cons_cons] at ih ⊢
        exact congrArg (c :: ·) ih

end ParamSql.Text
