import ParamSql.Catalog.Reader
import ParamSql.Proofs.Checks
import ParamSql.Proofs.Json.Fields

/-!
# Catalogs that are read from a text

An object describes a table by its name and whatever else is given of it; what is left out has its
default. An array of objects that each describe a table is the catalog of these tables, in the order
of the text, and as soon as one object describes none the whole text is refused.

Results:
* `TableInfo.ofJson?_object_eq_some_iff`: which objects describe a table, and which table.
* `Catalog.ofJson_write_eq_ok_iff`, `Catalog.ofJson_write_eq_error_iff`: the text of any number of
  objects.
-/

namespace ParamSql

open Json

namespace TableInfo

/-- The fields of an object describe a table: none of the four parts is given twice, each that is
given has its type, and the name is given. -/
structure Describes (fields : List (Option String × Json)) (t : TableInfo) : Prop where
  schema : Says text? defaultSchema (valuesOf fields "schema") t.schema
  name : ∃ json, valuesOf fields "name" = [json] ∧ json.text? = some t.name
  columns : Says texts? [] (valuesOf fields "columns") t.columns
  constraints : Says texts? [] (valuesOf fields "constraints") t.constraints

theorem ofJson?_object_eq_some_iff {fields : List (Option String × Json)} {t : TableInfo} :
    ofJson? (.object fields) = some t ↔
      (∀ field ∈ fields, field.1 ≠ none) ∧ Describes fields t := by
  simp only [ofJson?, ofParts?, Option.bind_eq_bind, Option.bind_eq_some_iff]
  constructor
  · rintro ⟨_, hs, _, hn, _, hc, _, hk, _, hs', _, ⟨_, rfl, hn'⟩, _, hc', _, hk', ⟨⟩⟩
    obtain ⟨hnames, hschema⟩ := exists_orDefault?_iff.1 ⟨_, hs, hs'⟩
    exact ⟨hnames, hschema, (exists_given_iff.1 ⟨_, hn, hn'⟩).2,
      (exists_orDefault?_iff.1 ⟨_, hc, hc'⟩).2, (exists_orDefault?_iff.1 ⟨_, hk, hk'⟩).2⟩
  · rintro ⟨hnames, hschema, hname, hcolumns, hconstraints⟩
    obtain ⟨_, hs, hs'⟩ := exists_orDefault?_iff.2 ⟨hnames, hschema⟩
    obtain ⟨_, hn, hn'⟩ := exists_given_iff.2 ⟨hnames, hname⟩
    obtain ⟨_, hc, hc'⟩ := exists_orDefault?_iff.2 ⟨hnames, hcolumns⟩
    obtain ⟨_, hk, hk'⟩ := exists_orDefault?_iff.2 ⟨hnames, hconstraints⟩
    exact ⟨_, hs, _, hn, _, hc, _, hk, _, hs', _, ⟨_, rfl, hn'⟩, _, hc', _, hk', rfl⟩

theorem ofJson?_json_object_eq_some_iff {fields : List (String × Document)} {t : TableInfo} :
    ofJson? (Document.object fields).json = some t ↔ Describes (Document.jsonFields fields) t := by
  rw [Document.json, ofJson?_object_eq_some_iff]
  exact and_iff_right (Document.names_jsonFields fields)

/-- A name is enough, and a field of another name does not count. -/
example : Describes [(some "pages", .null), (some "name", .string "film")]
    ⟨"public", "film", [], []⟩ :=
  ⟨.missing, ⟨_, rfl, rfl⟩, .missing, .missing⟩

end TableInfo

namespace Catalog

/-- The text of any number of objects. -/
def writeObjects (objects : List (List (String × Document))) : String :=
  String.ofList (Document.array (objects.map .object)).write

section

variable {objects : List (List (String × Document))}

theorem list?_ofJson?_eq_some_iff {tables : List TableInfo} :
    (Document.array (objects.map .object)).json.list? TableInfo.ofJson? = some tables ↔
      List.Forall₂ (fun fields t => TableInfo.Describes (Document.jsonFields fields) t)
        objects tables := by
  rw [Document.list?_array_eq_some_iff, List.forall₂_map_left_iff]
  simp only [TableInfo.ofJson?_json_object_eq_some_iff]

/-- The catalog of a text is the catalog of the tables that its objects describe. -/
theorem ofJson_write_eq_ok_iff {c : Catalog} :
    ofJson (writeObjects objects) = .ok c ↔
      ∃ tables, List.Forall₂ (fun fields t => TableInfo.Describes (Document.jsonFields fields) t)
        objects tables ∧ ofList tables = c := by
  simp only [← list?_ofJson?_eq_some_iff, ofJson, writeObjects, Document.read?_write,
    Option.bind_some]
  split
  · rename_i tables htables
    simp only [htables, Option.some.injEq, exists_eq_left', Except.ok.injEq]
  · rename_i hnone
    simp [hnone]

/-- A text is refused as soon as one of its objects describes no table. -/
theorem ofJson_write_eq_error_iff {r : Rejection} :
    ofJson (writeObjects objects) = .error r ↔
      r = .badCatalog ∧
        ∃ fields ∈ objects, ∀ t, ¬ TableInfo.Describes (Document.jsonFields fields) t := by
  have hall : (∃ tables, List.Forall₂ (fun fields t =>
        TableInfo.Describes (Document.jsonFields fields) t) objects tables) ↔
      ∀ fields ∈ objects, ∃ t, TableInfo.Describes (Document.jsonFields fields) t :=
    exists_forall₂_iff
  simp only [← list?_ofJson?_eq_some_iff] at hall
  rw [ofJson, writeObjects, Document.read?_write, Option.bind_some]
  split
  · rename_i tables htables
    have hdescribed := hall.1 ⟨tables, htables⟩
    simp only [reduceCtorEq, false_iff, not_and, not_exists, not_forall, not_not]
    exact fun _ => hdescribed
  · rename_i hnone
    simp only [hnone, reduceCtorEq, exists_false, false_iff, not_forall, not_exists] at hall
    obtain ⟨fields, hfields, ht⟩ := hall
    simp only [Except.error.injEq]
    exact ⟨fun h => ⟨h.symm, fields, hfields, ht⟩, fun h => h.1.symm⟩

end

end Catalog

end ParamSql
