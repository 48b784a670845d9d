import ParamSql.Error
import ParamSql.Text.Case

/-!
# Result rows

The rows that come back from a server, and how a value is read from one. A column is found by its
name, letter for letter if there is such a column, else without regard to the case of ASCII letters.
A value is read as one type, which has to be the type of the column.

Models `RowExt` and `FromRow`.

Results:
* `readAt_eq_ok_iff`: what can be read at a position.
-/

namespace ParamSql

/-- The types of columns. -/
inductive ColumnType where
  | int2
  | int4
  | int8
  | bool
  | text
  deriving DecidableEq, Repr

/-- A value in a row. -/
inductive Cell where
  | null
  | int (n : Int)
  | bool (b : Bool)
  | text (s : String)
  deriving DecidableEq, Repr

/-- A result row: names and types of its columns, and a value for each. -/
structure Row where
  columns : List (String × ColumnType)
  cells : List Cell
  deriving DecidableEq, Repr

/-- What is wanted of a column: a value of a type, or perhaps a null. -/
structure CellType where
  type : ColumnType
  nullable : Bool
  deriving DecidableEq, Repr

namespace Row

open Text (upper)

/-- The position of a column. -/
def index? (r : Row) (name : String) : Option Nat :=
  (r.columns.findIdx? (·.1 = name)).or (r.columns.findIdx? fun c => upper c.1 = upper name)

/-- Whether a cell of a column can be read as what is wanted. -/
def fits (wanted : CellType) (type : ColumnType) (cell : Cell) : Bool :=
  type = wanted.type && (cell ≠ .null || wanted.nullable)

/-- Reads the cell at a position, where `name` says what was asked for. -/
def readAt (r : Row) (wanted : CellType) (index : Nat) (name : String) :
    Except DecodeFault Cell :=
  match r.columns[index]?, r.cells[index]? with
  | some (_, type), some cell =>
    if fits wanted type cell then .ok cell else .error (.mismatch index)
  | _, _ => .error (.noColumn name)

/-- Reads a column by its name (`RowExt.try_get_column`). -/
def read (r : Row) (name : String) (wanted : CellType) : Except Error Cell :=
  match r.index? name with
  | some index => (r.readAt wanted index name).mapError (.decode name)
  | none => .error (.decode name (.noColumn name))

/-- Reads columns by their names, up to the first that cannot be read (`FromRow.from_row`). -/
def readAll (r : Row) (wanted : List (String × CellType)) : Except Error (List Cell) :=
  wanted.mapM fun (name, type) => r.read name type

theorem fits_eq_true_iff {wanted : CellType} {type : ColumnType} {cell : Cell} :
    fits wanted type cell = true ↔
      type = wanted.type ∧ (cell = .null → wanted.nullable = true) := by
  by_cases hnull : cell = .null <;> simp [fits, hnull]

/-- A cell is read exactly where it is and has the type that is wanted, a null only if one may be
there. -/
theorem readAt_eq_ok_iff {r : Row} {wanted : CellType} {index : Nat} {name : String} {cell : Cell} :
    r.readAt wanted index name = .ok cell ↔
      (∃ column, r.columns[index]? = some (column, wanted.type)) ∧
        r.cells[index]? = some cell ∧ (cell = .null → wanted.nullable = true) := by
  rw [readAt]
  constructor
  · intro h
    split at h
    · rename_i column type found hcolumn hcell
      split at h
      · rename_i hfits
        cases h
        obtain ⟨rfl, hnull⟩ := fits_eq_true_iff.1 hfits
        exact ⟨⟨column, hcolumn⟩, hcell, hnull⟩
      · cases h
    · cases h
  · rintro ⟨⟨column, hcolumn⟩, hcell, hnull⟩
    rw [hcolumn, hcell]
    exact if_pos (fits_eq_true_iff.2 ⟨rfl, hnull⟩)

end Row

end ParamSql
