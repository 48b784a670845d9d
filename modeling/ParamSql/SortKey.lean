import ParamSql.Error
import ParamSql.Phrase
import ParamSql.Text.Case

/-!
# Sort keys

An ORDER BY clause is a list of keys, each a column with a direction and an optional place for
nulls. Both are kept as the caller wrote them and read when the statement compiles, in any case of
ASCII letters; what is written is always in upper case.

Models `OrderSpec`.
-/

namespace ParamSql

open Text (upper)

variable {α : Type}

/-- One key of an ORDER BY clause, in the caller's words (`OrderSpec`). -/
structure SortKey where
  column : String
  direction : String
  nulls : Option String
  deriving DecidableEq, Repr

namespace SortKey

/-- The word for ascending order. -/
def ascWord : String := "ASC"

/-- The word for descending order. -/
def descWord : String := "DESC"

/-- The word for nulls before all values. -/
def firstWord : String := "FIRST"

/-- The word for nulls after all values. -/
def lastWord : String := "LAST"

/-- Ascending order on a column (`OrderSpec.asc`). -/
def asc (column : String) : SortKey := ⟨column, ascWord, none⟩

/-- Descending order on a column (`OrderSpec.desc`). -/
def desc (column : String) : SortKey := ⟨column, descWord, none⟩

/-- The key with another direction (`OrderSpec.direction`). -/
def setDirection (k : SortKey) (word : String) : SortKey := { k with direction := word }

/-- The key with another place of nulls (`OrderSpec.nulls`). -/
def setNulls (k : SortKey) (word : String) : SortKey := { k with nulls := some word }

/-- One call on a sort key, as a value. -/
inductive Call where
  | direction (word : String)
  | nulls (word : String)
  deriving DecidableEq, Repr

/-- The key after a call. -/
def apply (k : SortKey) : Call → SortKey
  | .direction word => k.setDirection word
  | .nulls word => k.setNulls word

/-- The key that calls make of a column, which is in ascending order until they say otherwise. -/
def ofCalls (column : String) (calls : List Call) : SortKey := calls.foldl apply (asc column)

/-- The direction as it is written. -/
def directionText (k : SortKey) : Except Rejection String :=
  if upper k.direction = ascWord then .ok " ASC"
  else if upper k.direction = descWord then .ok " DESC"
  else .error (.sortDirection k.direction k.column)

/-- The place of nulls as it is written; nothing if none is given. -/
def nullsText (k : SortKey) : Except Rejection String :=
  match k.nulls with
  | none => .ok ""
  | some nulls =>
    if upper nulls = firstWord then .ok " NULLS FIRST"
    else if upper nulls = lastWord then .ok " NULLS LAST"
    else .error (.sortNulls nulls k.column)

/-- The key as a phrase (`OrderSpec.to_fragment`). Its column is read first, then the direction,
then the place of nulls. -/
def phrase (k : SortKey) : Except Rejection (Phrase α) := do
  let column ← Identifier.expect k.column
  let direction ← k.directionText
  let nulls ← k.nullsText
  return .concat [.name column, .keyword direction, .keyword nulls]

/-- The ORDER BY clause, or nothing for no keys (`compile_order`). -/
def clause (keys : List SortKey) : Except Rejection (Phrase α) :=
  if keys.isEmpty then .ok .empty
  else (keys.mapM phrase).map fun phrases => .concat [.keyword "ORDER BY ", .listed phrases]

end SortKey

end ParamSql
