import ParamSql.OrderedMap
import ParamSql.Template

/-!
# Phrases with other values

A function on values replaces every value that a phrase binds. What is written does not depend on
the values: with other values the text is the same character for character, and the values are
replaced where they stand.

Results:
* `Phrase.isEmpty_map`: whether a phrase has text does not depend on its values.
* `Phrase.query_map`: the text is the same, with the replaced values.
* `Template.phrase?_map`: a template is filled with as many values as before.
* `OrderedMap.map_set`, `OrderedMap.get?_map`: replaced values stand at the same keys.
-/

namespace ParamSql

variable {α β : Type}

/-! ## Queries -/

namespace Query

/-- The same text with replaced values. -/
def map (f : α → β) (q : Query α) : Query β := ⟨q.sql, q.values.map f⟩

@[simp] theorem map_empty (f : α → β) : (empty : Query α).map f = empty := rfl

@[simp] theorem map_append (f : α → β) (q : Query α) (text : String) :
    (q.append text).map f = (q.map f).append text := rfl

@[simp] theorem map_bind (f : α → β) (q : Query α) (v : α) :
    (q.bind v).map f = (q.map f).bind (f v) := by
  simp only [map, bind, List.map_append, List.length_map, List.map_singleton]

end Query

/-! ## Phrases -/

namespace Phrase

mutual

/-- The phrase with replaced values. -/
def map (f : α → β) : Phrase α → Phrase β
  | .keyword text => .keyword text
  | .raw text => .raw text
  | .name x => .name x
  | .value v => .value (f v)
  | .seq separator items => .seq separator (mapAll f items)

/-- The phrases with replaced values. -/
def mapAll (f : α → β) : List (Phrase α) → List (Phrase β)
  | [] => []
  | item :: rest => map f item :: mapAll f rest

end

section

variable (f : α → β)

@[simp] theorem mapAll_eq (items : List (Phrase α)) : mapAll f items = items.map (map f) := by
  induction items with
  | nil => rfl
  | cons item rest ih => rw [mapAll, ih, List.map_cons]

@[simp] theorem map_keyword (text : String) :
    (Phrase.keyword text : Phrase α).map f = .keyword text := rfl

@[simp] theorem map_raw (text : String) : (Phrase.raw text : Phrase α).map f = .raw text := rfl

@[simp] theorem map_name (x : Identifier) : (Phrase.name x : Phrase α).map f = .name x := rfl

@[simp] theorem map_value (v : α) : (Phrase.value v).map f = .value (f v) := rfl

@[simp] theorem map_seq (separator : String) (items : List (Phrase α)) :
    (Phrase.seq separator items).map f = .seq separator (items.map (map f)) :=
  congrArg (Phrase.seq separator) (mapAll_eq f items)

@[simp] theorem map_empty : (empty : Phrase α).map f = empty := rfl

@[simp] theorem map_concat (items : List (Phrase α)) :
    (concat items).map f = concat (items.map (map f)) := map_seq f "" items

@[simp] theorem map_spaced (items : List (Phrase α)) :
    (spaced items).map f = spaced (items.map (map f)) := map_seq f " " items

@[simp] theorem map_listed (items : List (Phrase α)) :
    (listed items).map f = listed (items.map (map f)) := map_seq f ", " items

/-- Names in a list bind no values. -/
@[simp] theorem map_names (columns : List Identifier) :
    (columns.map (name : Identifier → Phrase α)).map (map f) = columns.map name := by
  rw [List.map_map]
  rfl

/-- Bound values in a list. -/
@[simp] theorem map_values (values : List α) :
    (values.map value).map (map f) = (values.map f).map value := by
  rw [List.map_map, List.map_map]
  rfl

@[simp] theorem map_parens (inner : Phrase α) : (parens inner).map f = parens (inner.map f) := by
  rw [parens, map_concat]
  rfl

mutual

/-- Whether a phrase has text does not depend on its values. -/
theorem isEmpty_map : ∀ p : Phrase α, (p.map f).isEmpty = p.isEmpty
  | .keyword _ => rfl
  | .raw _ => rfl
  | .name _ => rfl
  | .value _ => rfl
  | .seq _ items => allEmpty_mapAll items

theorem allEmpty_mapAll : ∀ items : List (Phrase α), allEmpty (mapAll f items) = allEmpty items
  | [] => rfl
  | item :: rest => by rw [mapAll, allEmpty, allEmpty, isEmpty_map item, allEmpty_mapAll rest]

end

mutual

/-- Writing a phrase with replaced values adds the same text, and the replaced values. -/
theorem write_map : ∀ (p : Phrase α) (q : Query α), (p.map f).write (q.map f) = (p.write q).map f
  | .keyword _, _ => rfl
  | .raw _, _ => rfl
  | .name _, _ => rfl
  | .value v, q => (Query.map_bind f q v).symm
  | .seq separator items, q => writeItems_mapAll separator true items q

theorem writeItems_mapAll (separator : String) : ∀ (first : Bool) (items : List (Phrase α))
    (q : Query α), writeItems separator first (mapAll f items) (q.map f) =
      (writeItems separator first items q).map f
  | _, [], _ => rfl
  | first, item :: rest, q => by
    rw [mapAll, writeItems, writeItems, isEmpty_map f item]
    by_cases h : item.isEmpty = true
    · rw [if_pos h, if_pos h]
      exact writeItems_mapAll separator first rest q
    · rw [if_neg h, if_neg h]
      cases first with
      | true =>
        have hrest := writeItems_mapAll separator false rest (item.write q)
        rwa [← write_map item q] at hrest
      | false =>
        have hrest := writeItems_mapAll separator false rest (item.write (q.append separator))
        rwa [← write_map item (q.append separator)] at hrest

end

/-- With replaced values the text of a phrase is the same. -/
theorem query_map (p : Phrase α) : (p.map f).query = p.query.map f := write_map f p .empty

@[simp] theorem map_ledBy (keyword : String) (body : Phrase α) :
    (ledBy keyword body).map f = ledBy keyword (body.map f) := by
  rw [ledBy, ledBy, isEmpty_map]
  by_cases h : body.isEmpty = true
  · rw [if_pos h, if_pos h, map_empty]
  · rw [if_neg h, if_neg h, map_concat]
    rfl

end

end Phrase

/-! ## Templates -/

namespace Template

theorem fill_map (f : α → β) (values : List α) (texts : List (List Char)) :
    fill (values.map f) texts = (fill values texts).map (Phrase.map f) := by
  induction values generalizing texts with
  | nil => cases texts <;> rfl
  | cons v values ih =>
    cases texts with
    | nil => rfl
    | cons text more =>
      rw [List.map_cons, fill, fill, ih more]
      rfl

/-- A template is filled with as many values as before. -/
theorem phrase?_map (f : α → β) (sql : String) (values : List α) :
    phrase? sql (values.map f) = (phrase? sql values).map (Phrase.map f) := by
  simp only [phrase?, List.length_map]
  split
  · rw [fill_map, Option.map_some, Phrase.map_concat]
    rfl
  · rfl

end Template

/-! ## Maps -/

namespace OrderedMap

section

variable (f : α → β)

theorem ext_entries {m n : OrderedMap α} (h : m.entries = n.entries) : m = n := by
  cases m
  cases n
  cases h
  rfl

@[simp] theorem entries_map (m : OrderedMap α) :
    (m.map f).entries = m.entries.map fun entry => (entry.1, f entry.2) := rfl

@[simp] theorem values_map (m : OrderedMap α) : (m.map f).values = m.values.map f := by
  rw [values, values, entries_map, List.map_map, List.map_map]
  rfl

@[simp] theorem isEmpty_map (m : OrderedMap α) : (m.map f).isEmpty = m.isEmpty := by
  rw [isEmpty, isEmpty, entries_map, List.isEmpty_map]

theorem contains_map (m : OrderedMap α) : (m.map f).contains = m.contains := by
  funext key
  rw [contains, contains, entries_map, List.any_map]
  rfl

@[simp] theorem size_map (m : OrderedMap α) : (m.map f).size = m.size := List.length_map ..

theorem get?_map (m : OrderedMap α) (key : String) :
    (m.map f).get? key = (m.get? key).map f := by
  rw [get?, get?, entries_map, List.find?_map, Option.map_map, Option.map_map]
  rfl

theorem setEntry_map (key : String) (value : α) (entries : List (String × α)) :
    setEntry key (f value) (entries.map fun entry => (entry.1, f entry.2)) =
      (setEntry key value entries).map fun entry => (entry.1, f entry.2) := by
  induction entries with
  | nil => rfl
  | cons entry rest ih =>
    rw [List.map_cons, setEntry, setEntry]
    by_cases h : entry.1 = key
    · rw [if_pos h, if_pos h, List.map_cons]
    · rw [if_neg h, if_neg h, List.map_cons, ih]

theorem map_set (m : OrderedMap α) (key : String) (value : α) :
    (m.set key value).map f = (m.map f).set key (f value) :=
  ext_entries (setEntry_map f key value m.entries).symm

theorem map_setAll (m : OrderedMap α) (pairs : List (String × α)) :
    (m.setAll pairs).map f = (m.map f).setAll (pairs.map fun pair => (pair.1, f pair.2)) := by
  rw [setAll, setAll, List.foldl_map]
  exact (List.foldl_hom (map f) fun m pair => (map_set f m pair.1 pair.2).symm).symm

end

end OrderedMap

end ParamSql
