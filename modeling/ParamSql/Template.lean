import ParamSql.Phrase

/-!
# Templates

A template is SQL text in which each `?` stands for one value, in order; a doubled `??` is a
question mark of the text itself.

Models `template_fragment`.

Results:
* `phrase?_eq_none_iff`: a template is refused exactly if it has not one placeholder per value.
-/

namespace ParamSql.Template

variable {α : Type}

/-- Reads a template from the left: the text before the first placeholder, and the text after each
placeholder up to the next one. -/
def read : List Char → List Char × List (List Char)
  | [] => ([], [])
  | '?' :: '?' :: rest =>
    let (text, more) := read rest
    ('?' :: text, more)
  | '?' :: rest =>
    let (text, more) := read rest
    ([], text :: more)
  | c :: rest =>
    let (text, more) := read rest
    (c :: text, more)

/-- The number of placeholders. -/
def placeholders (cs : List Char) : Nat := (read cs).2.length

/-- A value and the text after it, for as many placeholders as there are values. -/
def fill : List α → List (List Char) → List (Phrase α)
  | v :: values, text :: more => .value v :: .raw (String.ofList text) :: fill values more
  | _, _ => []

/-- The template with one value for each placeholder; none if their numbers differ
(`template_fragment`). -/
def phrase? (sql : String) (values : List α) : Option (Phrase α) :=
  let (text, more) := read sql.toList
  if more.length = values.length then
    some (.concat (.raw (String.ofList text) :: fill values more))
  else none

theorem phrase?_eq_none_iff (sql : String) (values : List α) :
    phrase? sql values = none ↔ placeholders sql.toList ≠ values.length := by
  simp only [phrase?, placeholders]
  split <;> simp_all

end ParamSql.Template
