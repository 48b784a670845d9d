import Mathlib.Data.List.Forall2
import ParamSql.Json.Fields
import ParamSql.Proofs.Json.Written

/-!
# Fields that are given or left out

What an object says depends on the values of each name alone: on how many there are, and on what
each is. The order of the fields and fields of other names do not count.

Results:
* `exists_orDefault?_iff`, `exists_given_iff`: fields that may be left out, and fields that may not.
* `Document.text?_json_eq_some_iff`, `Document.texts?_json_eq_some_iff`: documents that are read as
  a text, and as a list of texts.
-/

namespace ParamSql.Json

/-! ## What fields say -/

section

variable {α : Type} {f : Json → Option α} {default value : α} {fields : List (Option String × Json)}
  {key : String}

/-- The values of the fields of a name. -/
def valuesOf (fields : List (Option String × Json)) (key : String) : List Json :=
  (fields.filter (·.1 == some key)).map Prod.snd

/-- What the values of a name say, if a value is read by `f` and one may be left out. -/
inductive Says (f : Json → Option α) (default : α) : List Json → α → Prop
  | missing : Says f default [] default
  | given {json : Json} {value : α} : f json = some value → Says f default [json] value

/-- A field that may be left out is read if it is not given twice. -/
theorem exists_orDefault?_iff :
    (∃ json, once? fields key = some json ∧ orDefault? f default json = some value) ↔
      (∀ field ∈ fields, field.1 ≠ none) ∧ Says f default (valuesOf fields key) value := by
  simp only [once?_eq_some_iff]
  constructor
  · rintro ⟨json, ⟨hnames, hvalues⟩, hjson⟩
    rw [valuesOf, hvalues]
    cases json with
    | none =>
      cases hjson
      exact ⟨hnames, .missing⟩
    | some json => exact ⟨hnames, .given hjson⟩
  · rintro ⟨hnames, hsays⟩
    rw [valuesOf] at hsays
    generalize hvalues : (fields.filter (·.1 == some key)).map Prod.snd = values at hsays ⊢
    cases hsays with
    | missing => exact ⟨none, ⟨hnames, rfl⟩, rfl⟩
    | given h => exact ⟨some _, ⟨hnames, rfl⟩, h⟩

/-- A field that may not be left out is read if it is given once. -/
theorem exists_given_iff :
    (∃ json, once? fields key = some (some json) ∧ f json = some value) ↔
      (∀ field ∈ fields, field.1 ≠ none) ∧
        ∃ json, valuesOf fields key = [json] ∧ f json = some value := by
  simp only [once?_eq_some_iff, valuesOf, Option.toList_some, and_assoc, exists_and_left]

end

theorem int?_eq_some_iff {json : Json} {n : Int} :
    json.int? = some n ↔ json = .number (some (.whole n)) := by
  constructor
  · intro h
    unfold int? at h
    split at h <;> cases h
    rfl
  · rintro rfl
    rfl

/-! ## Written fields -/

namespace Document

theorem jsonFields_eq_map (fields : List (String × Document)) :
    jsonFields fields = fields.map fun field => (some field.1, json field.2) := by
  induction fields with
  | nil => rfl
  | cons field fields ih => rw [jsonFields, ih, List.map_cons]

theorem jsonItems_eq_map (items : List Document) : jsonItems items = items.map json := by
  induction items with
  | nil => rfl
  | cons item items ih => rw [jsonItems, ih, List.map_cons]

/-- The names of written fields are texts. -/
theorem names_jsonFields (fields : List (String × Document)) :
    ∀ field ∈ jsonFields fields, field.1 ≠ none := by
  rw [jsonFields_eq_map, List.forall_mem_map]
  exact fun field _ => Option.some_ne_none field.1

/-- The items of an array are read one by one. -/
theorem list?_array_eq_some_iff {α : Type} {f : Json → Option α} {items : List Document}
    {as : List α} :
    (json (.array items)).list? f = some as ↔
      List.Forall₂ (fun item a => f (json item) = some a) items as := by
  rw [json, list?, jsonItems_eq_map]
  induction items generalizing as with
  | nil => simp [eq_comm]
  | cons item items ih =>
    rw [List.map_cons, List.mapM_cons, List.forall₂_cons_left_iff]
    simp only [Option.bind_eq_bind, Option.bind_eq_some_iff, ih]
    constructor
    · rintro ⟨a, hitem, as, hitems, ⟨⟩⟩
      exact ⟨a, as, hitem, hitems, rfl⟩
    · rintro ⟨a, as, hitem, hitems, rfl⟩
      exact ⟨a, hitem, as, hitems, rfl⟩

theorem text?_json_eq_some_iff {d : Document} {s : String} :
    (json d).text? = some s ↔ d = .string s := by
  cases d <;> simp [json, text?]

theorem texts?_json_eq_some_iff {d : Document} {names : List String} :
    texts? (json d) = some names ↔ d = .array (names.map .string) := by
  cases d with
  | array items =>
    rw [texts?, list?_array_eq_some_iff, array.injEq, ← List.forall₂_eq_eq_eq,
      List.forall₂_map_right_iff]
    simp only [text?_json_eq_some_iff]
  | _ => simp [json, texts?, list?]

end Document

end ParamSql.Json
