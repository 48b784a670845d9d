import ParamSql.Json.Fields
import ParamSql.Json.Reader
import ParamSql.Pool

/-!
# Pool settings as JSON

Settings are an object, or an array of up to three values in the order address, size, test. What is
missing has its default; what is given has to have its type; fields of other names do not count.

Models reading a `PoolConfig`.
-/

namespace ParamSql

open Json

/-- The test that a document names, as a string or as an object with nothing to add. -/
def Recycling.ofJson? : Json → Option Recycling
  | .string (some "fast") => some .fast
  | .string (some "verified") => some .verified
  | .object [(some "fast", .null)] => some .fast
  | .object [(some "verified", .null)] => some .verified
  | _ => none

namespace PoolSettings

/-- The size that a document gives. -/
def sizeOfJson? (json : Json) : Option Nat :=
  json.int?.bind fun n => if 0 ≤ n ∧ n < sizeBound then some n.toNat else none

/-- Settings, from their parts where they are given. -/
def ofParts? (address maxSize recycling : Option Json) : Option PoolSettings := do
  let address ← orDefault? text? default.address address
  let maxSize ← orDefault? sizeOfJson? default.maxSize maxSize
  let recycling ← orDefault? Recycling.ofJson? default.recycling recycling
  some ⟨address, maxSize, recycling⟩

/-- The settings that a document gives. -/
def ofDocument? : Json → Option PoolSettings
  | .object fields => do
    let address ← once? fields "database_url"
    let maxSize ← once? fields "max_size"
    let recycling ← once? fields "recycling"
    ofParts? address maxSize recycling
  | .array items => if items.length ≤ 3 then ofParts? items[0]? items[1]? items[2]? else none
  | _ => none

/-- The settings that a JSON text gives. -/
def ofJson? (text : String) : Option PoolSettings := (Json.read? text).bind ofDocument?

end PoolSettings

end ParamSql
