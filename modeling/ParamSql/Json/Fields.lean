import ParamSql.Json

/-!
# Fields of an object

Descriptions and settings are objects with fields that may be missing, but not be given twice.

Results:
* `once?_eq_some_iff`: a field that may be given once.
-/

namespace ParamSql.Json

variable {α : Type}

/-- The value of a field that may be given once: `none` if it is given twice, or if a name of a
field is no text. -/
def once? (fields : List (Option String × Json)) (key : String) : Option (Option Json) :=
  if fields.any (·.1.isNone) then none
  else
    match fields.filter (·.1 == some key) with
    | [] => some none
    | [field] => some (some field.2)
    | _ => none

/-- A value that is read by `f` if it is given, and is `default` otherwise. -/
def orDefault? (f : Json → Option α) (default : α) : Option Json → Option α
  | some json => f json
  | none => some default

/-- A list of texts. -/
def texts? (json : Json) : Option (List String) := json.list? text?

/-- A field may be given once if it is not given twice and all names are texts. -/
theorem once?_eq_some_iff {fields : List (Option String × Json)} {key : String}
    {value : Option Json} :
    once? fields key = some value ↔
      (∀ field ∈ fields, field.1 ≠ none) ∧
        (fields.filter (·.1 == some key)).map Prod.snd = value.toList := by
  have hnames : fields.any (·.1.isNone) = false ↔ ∀ field ∈ fields, field.1 ≠ none := by
    simp only [List.any_eq_false, Option.isNone_iff_eq_none, ne_eq]
  rw [once?, ← hnames]
  cases fields.any (·.1.isNone) with
  | true => simp
  | false =>
    cases fields.filter (·.1 == some key) with
    | nil => cases value <;> simp
    | cons field rest => cases rest <;> cases value <;> simp

end ParamSql.Json
