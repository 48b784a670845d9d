import ParamSql.Catalog
import ParamSql.Proofs.OrderedMap.Calls

/-!
# Tables by schema and name

A catalog finds a table by the text of its schema and name with a dot between them, and of several
tables with the same text the one that was registered last. Where no two tables share their text
without sharing schema and name, that is the last one of this schema and name. Dots inside a schema
or a name can make two texts the same; a text with a dot is never looked up in the default schema.

Results:
* `lookup_ofList`, `size_ofList_eq`: a catalog in terms of the texts of its tables.
* `key_eq_default_iff`: without dots, the text of the default schema tells a name.
* `unambiguous_of_notMem`: texts without further dots tell schema and name.
* `find?_registered`: a catalog in terms of schemas and names.
* `dotted_clash`: two tables that share their text.
-/

namespace ParamSql

namespace TableInfo

/-- The schema and the name of a table. -/
def pair (t : TableInfo) : String × String := (t.schema, t.name)

end TableInfo

namespace Catalog

open TableInfo (defaultSchema)

/-- The table that was registered last under a schema and a name. -/
def lastNamed (tables : List TableInfo) (schema name : String) : Option TableInfo :=
  (tables.filter fun t => t.pair = (schema, name)).getLast?

/-- The table that was registered last under a text. -/
def lastKeyed (tables : List TableInfo) (key : String) : Option TableInfo :=
  (tables.filter fun t => t.key = key).getLast?

/-- No other table has the text of this one without its schema and name. -/
def KeyedAlone (tables : List TableInfo) (t : TableInfo) : Prop :=
  ∀ u ∈ tables, u.key = t.key → u.pair = t.pair

/-! ## Tables by their texts -/

theorem tables_ofList (tables : List TableInfo) :
    (ofList tables).tables = .ofList (tables.map fun t => (t.key, t)) := by
  have hfold (c : Catalog) : (tables.foldl register c).tables =
      c.tables.setAll (tables.map fun t => (t.key, t)) := by
    induction tables generalizing c with
    | nil => rfl
    | cons t rest ih => exact ih (c.register t)
  exact hfold ∅

/-- Under a text the last table is found that was registered under it. -/
theorem lookup_ofList (tables : List TableInfo) (key : String) :
    (ofList tables).tables.get? key = lastKeyed tables key := by
  rw [tables_ofList, OrderedMap.get?_ofList, lastKeyed, List.getLast?_filter, ← List.map_reverse]
  generalize tables.reverse = latest
  induction latest with
  | nil => rfl
  | cons t earlier ih =>
    rw [List.map_cons, List.lookup_cons, List.find?_cons, ih]
    by_cases h : t.key = key
    · rw [h, beq_self_eq_true, decide_eq_true rfl]
    · rw [decide_eq_false h, beq_eq_false_iff_ne.2 (Ne.symm h)]

theorem size_ofList_eq (tables : List TableInfo) :
    (ofList tables).size = (tables.map TableInfo.key).toFinset.card := by
  rw [size, tables_ofList, OrderedMap.size_ofList, List.map_map]
  rfl

theorem find?_key (tables : List TableInfo) (t : TableInfo) :
    (ofList tables).find? t.key = lastKeyed tables t.key := by
  have hdot : '.' ∈ t.key.toList := by simp [TableInfo.key]
  rw [find?, if_pos hdot, lookup_ofList]

/-! ## Texts and names -/

/-- Texts before a first dot are the same if all that follows is. -/
theorem eq_of_append_dot {a b c d : List Char} (ha : '.' ∉ a) (hc : '.' ∉ c)
    (h : a ++ '.' :: b = c ++ '.' :: d) : a = c ∧ b = d := by
  have hfront {cs : List Char} (hcs : '.' ∉ cs) (rest : List Char) :
      (cs ++ '.' :: rest).takeWhile (· ≠ '.') = cs := by
    rw [List.takeWhile_append_of_pos, List.takeWhile_cons_of_neg (by simp), List.append_nil]
    exact fun x hx => by simpa using ne_of_mem_of_not_mem hx hcs
  have hac : a = c := by rw [← hfront ha b, h, hfront hc d]
  rw [hac, List.append_cancel_left_eq, List.cons.injEq] at h
  exact ⟨hac, h.2⟩

theorem toList_key (t : TableInfo) : t.key.toList = t.schema.toList ++ '.' :: t.name.toList := by
  simp [TableInfo.key]

theorem pair_eq_iff (t u : TableInfo) :
    t.pair = u.pair ↔ t.schema.toList = u.schema.toList ∧ t.name.toList = u.name.toList := by
  rw [String.toList_inj, String.toList_inj, TableInfo.pair, TableInfo.pair, Prod.mk.injEq]

/-- Without dots in names, or without dots in schemas, the text tells both. -/
theorem unambiguous_of_notMem {tables : List TableInfo}
    (h : (∀ t ∈ tables, '.' ∉ t.name.toList) ∨ ∀ t ∈ tables, '.' ∉ t.schema.toList) :
    ∀ t ∈ tables, KeyedAlone tables t := by
  intro t ht u hu hkey
  rw [← String.toList_inj, toList_key, toList_key] at hkey
  rw [pair_eq_iff]
  rcases h with hnames | hschemas
  · -- From the right, the name ends at the first dot.
    have hback := congrArg List.reverse hkey
    simp only [List.reverse_append, List.reverse_cons, List.append_assoc,
      List.singleton_append] at hback
    obtain ⟨hname, hschema⟩ := eq_of_append_dot (by simpa using hnames u hu)
      (by simpa using hnames t ht) hback
    exact ⟨List.reverse_inj.1 hschema, List.reverse_inj.1 hname⟩
  · exact eq_of_append_dot (hschemas u hu) (hschemas t ht) hkey

/-- Without dots in schema and name, a table shares its text with none of another name. -/
theorem key_eq_iff {t : TableInfo} (hschema : '.' ∉ t.schema.toList) (hname : '.' ∉ t.name.toList)
    (u : TableInfo) : u.key = t.key ↔ u.pair = t.pair := by
  rw [eq_comm, @eq_comm _ u.pair, pair_eq_iff, ← String.toList_inj, toList_key, toList_key,
    List.append_cons_inj_of_notMem hschema hname]
  exact and_congr_right fun _ => and_iff_right rfl

/-- The text of a name without dots in the default schema tells the name. -/
theorem key_eq_default_iff {name : String} (h : '.' ∉ name.toList) (t : TableInfo) :
    t.key = defaultSchema ++ "." ++ name ↔ t.pair = (defaultSchema, name) := by
  have hdefault : '.' ∉ defaultSchema.toList := by decide
  exact @key_eq_iff ⟨defaultSchema, name, [], []⟩ hdefault h t

/-! ## Tables by schema and name -/

theorem lastKeyed_eq_lastNamed {tables : List TableInfo} {key schema name : String}
    (h : ∀ t ∈ tables, t.key = key ↔ t.pair = (schema, name)) :
    lastKeyed tables key = lastNamed tables schema name := by
  rw [lastKeyed, lastNamed, List.filter_congr fun t ht => decide_eq_decide.2 (h t ht)]

theorem find?_name (tables : List TableInfo) {name : String} (h : '.' ∉ name.toList) :
    (ofList tables).find? name = lastNamed tables defaultSchema name := by
  rw [find?, if_neg h, lookup_ofList]
  exact lastKeyed_eq_lastNamed fun t _ => key_eq_default_iff h t

theorem key_eq_of_pair {t u : TableInfo} (h : u.pair = t.pair) : u.key = t.key := by
  rw [← String.toList_inj, toList_key, toList_key]
  obtain ⟨hschema, hname⟩ := (pair_eq_iff u t).1 h
  rw [hschema, hname]

theorem find?_pair {tables : List TableInfo} {t : TableInfo} (h : KeyedAlone tables t) :
    (ofList tables).find? t.key = lastNamed tables t.schema t.name := by
  rw [find?_key]
  exact lastKeyed_eq_lastNamed fun u hu => ⟨h u hu, key_eq_of_pair⟩

/-- Tables that share no texts are as many as their schemas and names. -/
theorem size_pairs {tables : List TableInfo} (h : ∀ t ∈ tables, KeyedAlone tables t) :
    (ofList tables).size = (tables.map TableInfo.pair).toFinset.card := by
  have hkeys : (tables.map TableInfo.key).toFinset = (tables.map TableInfo.pair).toFinset.image
      fun pair => pair.1 ++ "." ++ pair.2 := by
    ext key
    simp [TableInfo.pair, TableInfo.key]
  rw [size_ofList_eq, hkeys, Finset.card_image_of_injOn]
  intro first hfirst second hsecond hsame
  obtain ⟨t, ht, rfl⟩ := List.mem_map.1 (List.mem_toFinset.1 hfirst)
  obtain ⟨u, hu, rfl⟩ := List.mem_map.1 (List.mem_toFinset.1 hsecond)
  exact h u hu t ht hsame

/-- A name without dots finds the last table of this name in the default schema. A table that shares
its text with no other one is found under it, the last one of its schema and name; without shared
texts there are as many tables as schemas and names, and texts are shared only if there are dots
both in schemas and in names. -/
theorem find?_registered (tables : List TableInfo) :
    (∀ name, '.' ∉ name.toList →
        (ofList tables).find? name = lastNamed tables defaultSchema name) ∧
      (∀ t ∈ tables, KeyedAlone tables t →
        ∃ u, (ofList tables).find? t.key = some u ∧ lastNamed tables t.schema t.name = some u) ∧
      ((∀ t ∈ tables, KeyedAlone tables t) →
        (ofList tables).size = (tables.map TableInfo.pair).toFinset.card) ∧
      ((∀ t ∈ tables, '.' ∉ t.name.toList) ∨ (∀ t ∈ tables, '.' ∉ t.schema.toList) →
        ∀ t ∈ tables, KeyedAlone tables t) := by
  refine ⟨fun name h => find?_name tables h, fun t ht halone => ?_, size_pairs,
    unambiguous_of_notMem⟩
  rw [find?_pair halone]
  -- The table itself is one of its schema and name, so that there is a last one.
  have hmem : t ∈ tables.filter fun u => u.pair = (t.schema, t.name) :=
    List.mem_filter.2 ⟨ht, decide_eq_true rfl⟩
  obtain ⟨u, hu⟩ := Option.isSome_iff_exists.1 (List.getLast?_isSome.2 (List.ne_nil_of_mem hmem))
  exact ⟨u, hu, hu⟩

/-- Two descriptions of one table, and tables of one name in two schemas. -/
def staffTables : List TableInfo :=
  [⟨"public", "film", ["id"], []⟩, ⟨"staff", "film", ["note"], []⟩,
    ⟨"public", "film", ["id", "title"], ["film_pkey"]⟩]

theorem find?_registered_staffTables :
    (ofList staffTables).find? "film" = some ⟨"public", "film", ["id", "title"], ["film_pkey"]⟩ ∧
      (ofList staffTables).find? "staff.film" = some ⟨"staff", "film", ["note"], []⟩ ∧
      (ofList staffTables).size = 2 := by
  obtain ⟨hname, hpair, hsize, halone⟩ := find?_registered staffTables
  have hdots : ∀ t ∈ staffTables, KeyedAlone staffTables t := halone (.inl (by decide))
  have hstaff : ⟨"staff", "film", ["note"], []⟩ ∈ staffTables := by decide
  obtain ⟨u, hu, hlast⟩ := hpair _ hstaff (hdots _ hstaff)
  refine ⟨(hname "film" (by decide)).trans (by decide), ?_, (hsize hdots).trans (by decide)⟩
  exact hu.trans (hlast.symm.trans (by decide))

/-- Two tables with the same text, and one in the default schema with a dot in its name. -/
def dottedTables : List TableInfo :=
  [⟨"a", "b.c", ["x"], []⟩, ⟨"a.b", "c", ["y"], []⟩, ⟨"public", "b.c", ["z"], []⟩]

/-- Of two tables that share their text only the second one is kept, and a name with a dot is not
looked up in the default schema. -/
theorem dotted_clash :
    (ofList dottedTables).size ≠ (dottedTables.map TableInfo.pair).toFinset.card ∧
      (ofList dottedTables).find? "a.b.c" ≠ lastNamed dottedTables "a" "b.c" ∧
      (ofList dottedTables).find? "b.c" ≠ lastNamed dottedTables defaultSchema "b.c" := by
  decide

end Catalog

end ParamSql
