import Mathlib.Data.List.TakeWhile
import ParamSql.Proofs.Identifier.Grammar
import ParamSql.Proofs.Insert.Written
import ParamSql.Statement

/-!
# What the check of an INSERT judges

The check looks names up as they are spelled: of a column the text behind the last dot, quotes
included, of a column that is returned the text behind the last dot of its name, and of a constraint
the whole text. That is the name of what the statement writes exactly if it is written without
quotes (`afterDot_sql_eq_name_iff`); for quoted names, and for names with dots, the check judges
another name than that of the column written.

Results:
* `Identifier.afterDot_sql_eq_name_iff`, `Identifier.sql_eq_name_iff`: when a spelling is a name.
* `Catalog.check_eq_ok_iff`: the check in terms of texts.
* `Catalog.check_written`: the check in terms of what the statement writes.
* `Catalog.quoted_refused`: a column that exists is refused if its name is quoted.
-/

namespace ParamSql

variable {α : Type}

open TableInfo (afterDot)

/-! ## Spellings and names -/

namespace TableInfo

theorem notMem_afterDot (name : String) : '.' ∉ (afterDot name).toList := by
  intro h
  rw [afterDot, String.toList_ofList, List.mem_reverse] at h
  simpa using List.mem_takeWhile_imp h

theorem afterDot_of_notMem {cs : List Char} (h : '.' ∉ cs) :
    afterDot (String.ofList cs) = String.ofList cs := by
  have hall : cs.reverse.takeWhile (· ≠ '.') = cs.reverse := by
    rw [List.takeWhile_eq_self_iff]
    intro c hc
    rw [List.mem_reverse] at hc
    simpa using ne_of_mem_of_not_mem hc h
  rw [afterDot, String.toList_ofList, hall, List.reverse_reverse]

theorem afterDot_append (front back : List Char) :
    afterDot (String.ofList (front ++ '.' :: back)) = afterDot (String.ofList back) := by
  have hstop (cs rest : List Char) :
      (cs ++ '.' :: rest).takeWhile (· ≠ '.') = cs.takeWhile (· ≠ '.') := by
    induction cs with
    | nil => simp
    | cons c cs ih => rw [List.cons_append, List.takeWhile_cons, List.takeWhile_cons, ih]
  rw [afterDot, afterDot, String.toList_ofList, String.toList_ofList, List.reverse_append,
    List.reverse_cons, List.append_assoc, List.singleton_append, hstop]

end TableInfo

namespace Segment

theorem length_le_double (cs : List Char) : cs.length ≤ (double cs).length := by
  induction cs with
  | nil => exact Nat.le_refl 0
  | cons c cs ih =>
    rw [double]
    split <;> simp only [List.length_cons] <;> omega

theorem length_name_le (s : Segment) : s.name.toList.length ≤ s.chars.length := by
  cases s with
  | plain n => exact Nat.le_refl _
  | quoted n =>
    have hlength := length_le_double n.toList
    simp only [chars, name, List.length_cons, List.length_append, List.length_nil]
    omega

/-- A plain segment has no dot. -/
theorem notMem_of_isPlain {cs : List Char} (h : isPlain cs = true) : '.' ∉ cs := fun hdot =>
  absurd (all_isPart h '.' hdot) (by decide)

/-- The text of a segment is its name exactly if it is plain. -/
theorem chars_eq_name_iff (s : Segment) : s.chars = s.name.toList ↔ ∃ n, s = .plain n := by
  cases s with
  | plain n => simp [chars, name]
  | quoted n =>
    have hlength := length_le_double n.toList
    -- The quotes make the text longer than the name.
    refine iff_of_false (fun h => ?_) (by simp)
    have hchars := congrArg List.length h
    simp only [chars, name, List.length_cons, List.length_append, List.length_nil] at hchars
    omega

/-- Behind its last dot, a segment is spelled as its name exactly if it is plain. -/
theorem afterDot_chars_eq_name_iff {s : Segment} (h : s.isValid = true) :
    afterDot (String.ofList s.chars) = s.name ↔ ∃ n, s = .plain n := by
  by_cases hdot : '.' ∈ s.chars
  · cases s with
    | plain n => exact absurd hdot (notMem_of_isPlain h)
    | quoted n =>
      -- What stands behind the last dot has no dot, the name has one.
      refine iff_of_false (fun he => ?_) (by simp)
      have hname : '.' ∈ n.toList := by simpa [chars, mem_double] using hdot
      have hafter := TableInfo.notMem_afterDot (String.ofList (quoted n).chars)
      rw [he] at hafter
      exact hafter hname
  · rw [TableInfo.afterDot_of_notMem hdot, ← chars_eq_name_iff, ← String.toList_inj,
      String.toList_ofList]

end Segment

namespace Identifier

/-- The last segment is written without quotes. -/
def IsPlain (x : Identifier) : Prop := ∃ n, x.base = .plain n

/-- The last segment is written last, behind a dot if there are qualifiers. -/
theorem chars_eq_base (x : Identifier) :
    x.tail = [] ∧ x.chars = x.base.chars ∨
      ∃ front, x.tail ≠ [] ∧ x.chars = front ++ '.' :: x.base.chars := by
  obtain ⟨head, tail, hvalid⟩ := x
  rcases List.eq_nil_or_concat tail with rfl | ⟨init, last, rfl⟩
  · exact .inl ⟨rfl, by simp [chars, Segment.dotted, base, segments]⟩
  · refine .inr ⟨head.chars ++ Segment.dotted init, by simp, ?_⟩
    simp [chars, Segment.dotted, base, segments]

/-- A name without quotes is plain. -/
theorem isPlain_of_notMem {x : Identifier} (h : '"' ∉ x.sql.toList) : x.IsPlain := by
  rw [sql, String.toList_ofList] at h
  have hbase : '"' ∉ x.base.chars := by
    rcases x.chars_eq_base with ⟨-, hchars⟩ | ⟨front, -, hchars⟩
    · rwa [hchars] at h
    · rw [hchars] at h
      exact fun hmem => h (List.mem_append_right _ (List.mem_cons_of_mem _ hmem))
  unfold IsPlain
  cases hx : x.base with
  | plain n => exact ⟨n, rfl⟩
  | quoted n => simp [hx, Segment.chars] at hbase

/-- A name without dots has no qualifiers. -/
theorem tail_of_notMem {x : Identifier} (h : '.' ∉ x.sql.toList) : x.tail = [] := by
  rcases x.chars_eq_base with ⟨hnone, -⟩ | ⟨front, -, hchars⟩
  · exact hnone
  · simp [sql, hchars] at h

/-- Behind its last dot, an identifier is spelled as its name exactly if it is plain. -/
theorem afterDot_sql_eq_name_iff (x : Identifier) : afterDot x.sql = x.name ↔ x.IsPlain := by
  have hafter : afterDot x.sql = afterDot (String.ofList x.base.chars) := by
    rcases x.chars_eq_base with ⟨-, hchars⟩ | ⟨front, -, hchars⟩
    · rw [sql, hchars]
    · rw [sql, hchars, TableInfo.afterDot_append]
  rw [hafter]
  exact Segment.afterDot_chars_eq_name_iff x.base_valid

/-- An identifier is spelled as its name exactly if it is one plain segment. -/
theorem sql_eq_name_iff (x : Identifier) : x.sql = x.name ↔ x.tail = [] ∧ x.IsPlain := by
  rw [← String.toList_inj, sql, String.toList_ofList]
  rcases x.chars_eq_base with ⟨hnone, hchars⟩ | ⟨front, hsome, hchars⟩
  · rw [hchars, and_iff_right hnone]
    exact x.base.chars_eq_name_iff
  · have hlength := x.base.length_name_le
    refine iff_of_false (fun h => ?_) (fun h => hsome h.1)
    have hchars := congrArg List.length (hchars.symm.trans h)
    rw [List.length_append, List.length_cons, name] at hchars
    omega

end Identifier

/-! ## The check in terms of texts -/

namespace TableInfo

theorem requireColumn_eq_ok_iff (t : TableInfo) (name : String) :
    t.requireColumn name = .ok () ↔ afterDot name ∈ t.columns := by
  simp [requireColumn, hasColumn]

theorem requireConstraint_eq_ok_iff (t : TableInfo) (name : String) :
    t.requireConstraint name = .ok () ↔ name ∈ t.constraints := by
  simp [requireConstraint, hasConstraint]

end TableInfo

/-- The names that are given for columns of an INSERT: those of its rows, then those of its conflict
clause. -/
def Insert.columnNames (i : Insert α) : List String :=
  i.rows.flatMap OrderedMap.keys ++
    (i.conflictNames Conflict.targetNames ++ i.conflictNames Catalog.conflictColumns)

namespace Catalog

theorem checkConflict_eq_ok_iff (t : TableInfo) (c : Conflict α) :
    checkConflict t c = .ok () ↔
      (∀ name ∈ c.targetNames ++ conflictColumns c, afterDot name ∈ t.columns) ∧
        ∀ name ∈ c.constraintNames, name ∈ t.constraints := by
  have htarget : checkTarget t c.target = .ok () ↔
      (∀ name ∈ c.targetNames, afterDot name ∈ t.columns) ∧
        ∀ name ∈ c.constraintNames, name ∈ t.constraints := by
    unfold Conflict.targetNames Conflict.constraintNames
    cases c.target with
    | columns names =>
      rw [checkTarget, forM_eq_ok_iff]
      simp [TableInfo.requireColumn_eq_ok_iff]
    | constraint name => simp [checkTarget, TableInfo.requireConstraint_eq_ok_iff]
  rw [checkConflict, then_eq_ok_iff, htarget, forM_eq_ok_iff, List.forall_mem_append]
  simp only [TableInfo.requireColumn_eq_ok_iff]
  exact and_right_comm

theorem checkReturning_eq_ok_iff (t : TableInfo) (i : Insert α) :
    i.returning.forM (checkReturning t) = .ok () ↔
      ∀ x ∈ i.returnedColumns, afterDot x.name ∈ t.columns := by
  rw [forM_eq_ok_iff, Insert.returnedColumns, List.forall_mem_filterMap]
  refine forall₂_congr fun entry _ => ?_
  cases entry with
  | column x => simp [checkReturning, TableInfo.requireColumn_eq_ok_iff, Projection.column?]
  | table x => simp [checkReturning, Projection.column?]
  | all => simp [checkReturning, Projection.column?]

/-- An INSERT passes the check if every name of a column is spelled as one of the table behind its
last dot, and its constraint is spelled as one of the table. -/
theorem check_eq_ok_iff {c : Catalog} {i : Insert α} {t : TableInfo}
    (ht : c.find? i.table = some t) :
    c.check i = .ok () ↔ (∀ name ∈ i.columnNames, afterDot name ∈ t.columns) ∧
      (∀ x ∈ i.returnedColumns, afterDot x.name ∈ t.columns) ∧
      ∀ name ∈ i.conflictNames Conflict.constraintNames, name ∈ t.constraints := by
  have hrows : (i.rows.forM fun row => row.keys.forM t.requireColumn) = .ok () ↔
      ∀ name ∈ i.rows.flatMap OrderedMap.keys, afterDot name ∈ t.columns := by
    simp only [forM_eq_ok_iff, TableInfo.requireColumn_eq_ok_iff, List.forall_mem_flatMap]
  unfold check Insert.columnNames Insert.conflictNames
  rw [ht]
  dsimp only
  rw [then_eq_ok_iff, hrows, List.forall_mem_append]
  cases i.conflict with
  | none =>
    simp only [checkReturning_eq_ok_iff, Option.toList_none, List.flatMap_nil, List.append_nil,
      List.not_mem_nil, false_implies, implies_true, and_true]
  | some conflict =>
    dsimp only
    rw [then_eq_ok_iff, checkReturning_eq_ok_iff, checkConflict_eq_ok_iff]
    simp only [Option.toList_some, List.flatMap_singleton]
    tauto

end Catalog

/-! ## The check in terms of what is written -/

namespace Insert

/-- All columns and the constraint that are named are found in the table, each by a text that
belongs to the identifier. -/
structure FoundBy (column returned constraint : Identifier → String) (i : Insert α)
    (t : TableInfo) : Prop where
  columns : ∀ name ∈ i.columnNames, ∃ x, Identifier.parse name = .ok x ∧ column x ∈ t.columns
  returning : ∀ x ∈ i.returnedColumns, returned x ∈ t.columns
  constraint : ∀ name ∈ i.conflictNames Conflict.constraintNames,
    ∃ x, Identifier.parse name = .ok x ∧ constraint x ∈ t.constraints

/-- All columns and the constraint that are named exist. -/
def IsKnown (i : Insert α) (t : TableInfo) : Prop :=
  i.FoundBy Identifier.name Identifier.name Identifier.name t

/-- All names are spelled as what they name: without quotes around the last segment, returned
columns without a dot in their name, and the constraint without qualifiers. -/
structure IsPlain (i : Insert α) : Prop where
  columns : ∀ name ∈ i.columnNames, ∀ x, Identifier.parse name = .ok x → x.IsPlain
  returning : ∀ x ∈ i.returnedColumns, '.' ∉ x.name.toList
  constraint : ∀ name ∈ i.conflictNames Conflict.constraintNames,
    ∀ x, Identifier.parse name = .ok x → x.tail = [] ∧ x.IsPlain

/-- Names without quotes are plain, with a constraint without dots. -/
theorem isPlain_of_unquoted {i : Insert α} (hcolumns : ∀ name ∈ i.columnNames, '"' ∉ name.toList)
    (hreturning : ∀ x ∈ i.returnedColumns, '.' ∉ x.name.toList)
    (hconstraint : ∀ name ∈ i.conflictNames Conflict.constraintNames,
      '.' ∉ name.toList ∧ '"' ∉ name.toList) : i.IsPlain where
  columns name hname x hx := by
    have hquote := hcolumns name hname
    rw [← Identifier.sql_of_parse hx] at hquote
    exact Identifier.isPlain_of_notMem hquote
  returning := hreturning
  constraint name hname x hx := by
    obtain ⟨hdot, hquote⟩ := hconstraint name hname
    rw [← Identifier.sql_of_parse hx] at hdot hquote
    exact ⟨Identifier.tail_of_notMem hdot, Identifier.isPlain_of_notMem hquote⟩

theorem FoundBy.congr {i : Insert α} {t : TableInfo}
    {column column' returned returned' constraint constraint' : Identifier → String}
    (h : i.FoundBy column returned constraint t)
    (hcolumn : ∀ name ∈ i.columnNames, ∀ x, Identifier.parse name = .ok x → column x = column' x)
    (hreturned : ∀ x ∈ i.returnedColumns, returned x = returned' x)
    (hconstraint : ∀ name ∈ i.conflictNames Conflict.constraintNames,
      ∀ x, Identifier.parse name = .ok x → constraint x = constraint' x) :
    i.FoundBy column' returned' constraint' t where
  columns name hname :=
    let ⟨x, hx, hfound⟩ := h.columns name hname
    ⟨x, hx, hcolumn name hname x hx ▸ hfound⟩
  returning x hx := hreturned x hx ▸ h.returning x hx
  constraint name hname :=
    let ⟨x, hx, hfound⟩ := h.constraint name hname
    ⟨x, hx, hconstraint name hname x hx ▸ hfound⟩

/-- Plain names are found by their spelling exactly if they are found by what they name. -/
theorem IsPlain.foundBy_iff {i : Insert α} (h : i.IsPlain) (t : TableInfo) :
    i.FoundBy (afterDot ·.sql) (afterDot ·.name) Identifier.sql t ↔ i.IsKnown t := by
  have hcolumn (name : String) (hname : name ∈ i.columnNames) (x : Identifier)
      (hx : Identifier.parse name = .ok x) : afterDot x.sql = x.name :=
    x.afterDot_sql_eq_name_iff.2 (h.columns name hname x hx)
  have hreturned (x : Identifier) (hx : x ∈ i.returnedColumns) : afterDot x.name = x.name := by
    have hname := TableInfo.afterDot_of_notMem (h.returning x hx)
    rwa [String.ofList_toList] at hname
  have hconstraint (name : String) (hname : name ∈ i.conflictNames Conflict.constraintNames)
      (x : Identifier) (hx : Identifier.parse name = .ok x) : x.sql = x.name :=
    x.sql_eq_name_iff.2 (h.constraint name hname x hx)
  exact ⟨fun hfound => hfound.congr hcolumn hreturned hconstraint,
    fun hknown => hknown.congr (fun name hname x hx => (hcolumn name hname x hx).symm)
      (fun x hx => (hreturned x hx).symm) fun name hname x hx => (hconstraint name hname x hx).symm⟩

/-- What holds of names that are identifiers holds of the texts of these. -/
theorem forall_iff_of_read {names : List String}
    (h : ∀ name ∈ names, ∃ x, Identifier.parse name = .ok x) (P : String → Prop) :
    (∀ name ∈ names, P name) ↔ ∀ name ∈ names, ∃ x, Identifier.parse name = .ok x ∧ P x.sql := by
  refine forall₂_congr fun name hname => ?_
  obtain ⟨x, hx⟩ := h name hname
  constructor
  · exact fun hP => ⟨x, hx, by rwa [Identifier.sql_of_parse hx]⟩
  · rintro ⟨y, hy, hP⟩
    rwa [Identifier.sql_of_parse hy] at hP

theorem Writes.read_columnNames {i : Insert α} {p : Phrase α} (h : i.Writes p) :
    ∀ name ∈ i.columnNames, ∃ x, Identifier.parse name = .ok x :=
  List.forall_mem_append.2 ⟨h.rows.read,
    List.forall_mem_append.2 ⟨h.target.read, h.updated.read⟩⟩

end Insert

namespace Catalog

/-- An INSERT that compiles writes all names that the check judges. It passes if each is spelled as
one of the table; where all names are plain, that is if each column written exists. -/
theorem check_written {c : Catalog} {i : Insert α} {t : TableInfo} {query : Query α}
    (h : (Statement.insert i).compile = .ok query) (ht : c.find? i.table = some t) :
    (∃ p, p.query = query ∧ i.Writes p) ∧
      (c.check i = .ok () ↔ i.FoundBy (afterDot ·.sql) (afterDot ·.name) Identifier.sql t) ∧
      (i.IsPlain → (c.check i = .ok () ↔ i.IsKnown t)) := by
  obtain ⟨p, hp, rfl⟩ := map_eq_ok_iff.1 h
  have hwrites := Insert.written_of_phrase hp
  have hcheck : c.check i = .ok () ↔
      i.FoundBy (afterDot ·.sql) (afterDot ·.name) Identifier.sql t := by
    rw [check_eq_ok_iff ht, Insert.forall_iff_of_read hwrites.read_columnNames,
      Insert.forall_iff_of_read hwrites.constraint.read]
    exact ⟨fun ⟨hcolumns, hreturning, hconstraint⟩ => ⟨hcolumns, hreturning, hconstraint⟩,
      fun hfound => ⟨hfound.columns, hfound.returning, hfound.constraint⟩⟩
  exact ⟨⟨p, rfl, hwrites⟩, hcheck, fun hplain => hcheck.trans (hplain.foundBy_iff t)⟩

/-- Two films in one statement, with a conflict clause. -/
def films : Insert Nat :=
  ((Insert.ofTable "film").addRows [.ofList [("film.title", 1), ("rating", 2)],
      .ofList [("rating", 3), ("film.title", 4)]]
    |>.setConflict (.constraint "film_pkey") [] (.update (.columns ["rating"]))
    |>.addReturning ["film.*", "film.title"])

/-- What the statement compiles to. -/
def filmsQuery : Query Nat where
  sql := "INSERT INTO film (title, rating) VALUES ($1, $2), ($3, $4) ON CONFLICT " ++
    "ON CONSTRAINT film_pkey DO UPDATE SET rating = EXCLUDED.rating " ++
    "RETURNING film.*, film.title"
  values := [1, 2, 4, 3]

/-- The table of the films. -/
def filmTable : TableInfo where
  schema := "public"
  name := "film"
  columns := ["id", "title", "rating"]
  constraints := ["film_pkey"]

theorem check_written_films :
    (Statement.insert films).compile = .ok filmsQuery ∧
      (ofList [filmTable]).find? films.table = some filmTable ∧ films.IsPlain ∧
      (ofList [filmTable]).check films = .ok () ∧ films.IsKnown filmTable := by
  have hc : (Statement.insert films).compile = .ok filmsQuery := by decide +kernel
  have ht : (ofList [filmTable]).find? films.table = some filmTable := by decide +kernel
  have hplain : films.IsPlain := Insert.isPlain_of_unquoted (by decide +kernel)
    (by decide +kernel) (by decide +kernel)
  have hcheck : (ofList [filmTable]).check films = .ok () := by decide +kernel
  obtain ⟨-, -, hknown⟩ := check_written hc ht
  exact ⟨hc, ht, hplain, hcheck, (hknown hplain).1 hcheck⟩

/-- An actor, with the name of the column in quotes. -/
def quotedActor : Insert Nat :=
  (Insert.ofTable "actor").addRows [.ofList [("\"first_name\"", 1)]]

/-- The table of the actors. -/
def actorTable : TableInfo where
  schema := "public"
  name := "actor"
  columns := ["first_name"]
  constraints := []

/-- A column that exists is refused if its name is quoted. -/
theorem quoted_refused :
    ¬ ∀ (c : Catalog) (i : Insert Nat) (t : TableInfo) (query : Query Nat),
      (Statement.insert i).compile = .ok query → c.find? i.table = some t →
        (c.check i = .ok () ↔ i.IsKnown t) := by
  intro hall
  have hc : (Statement.insert quotedActor).compile =
      .ok ⟨"INSERT INTO actor (\"first_name\") VALUES ($1)", [1]⟩ := by decide +kernel
  have ht : (ofList [actorTable]).find? quotedActor.table = some actorTable := by decide +kernel
  have hparse : Identifier.parse "\"first_name\"" =
      .ok (.ofSegment (.quoted "first_name") (by decide)) := by decide +kernel
  have hknown : quotedActor.IsKnown actorTable :=
    { columns := List.forall_mem_singleton.2 ⟨_, hparse, by decide +kernel⟩
      returning := fun x hx => absurd hx List.not_mem_nil
      constraint := fun name hname => absurd hname List.not_mem_nil }
  have hcheck := (hall _ _ _ _ hc ht).2 hknown
  exact absurd hcheck (by decide +kernel)

end Catalog

end ParamSql
