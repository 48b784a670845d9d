import ParamSql.Decimal.Layout
import ParamSql.Text.Quoted

/-!
# JSON documents

Documents as they are read: fields of an object in the order of the text, repetitions included, and
whole numbers apart from floating-point ones. `Json.shown` is the text of a document as a bound
value; there the fields of an object are sorted by name and the last of equal names counts.
-/

namespace ParamSql

/-- A number of a document. Whole numbers from -2^63 to below 2^64 are exact. -/
inductive Json.Number where
  | whole (n : Int)
  | float (x : Decimal.Binary)
  deriving DecidableEq, Repr

/-- A document. A string is `none` when it holds half of a surrogate pair, which no text can, and a
number is `none` when it is beyond every finite datum. Either is refused only where it is used. -/
inductive Json where
  | null
  | bool (b : Bool)
  | number (n : Option Json.Number)
  | string (s : Option String)
  | array (items : List Json)
  | object (fields : List (Option String × Json))

namespace Json

/-! ## Fields -/

/-- Puts a field at its place by name; a field of the same name is replaced. -/
def putSorted (key : String) (value : String) : List (String × String) → List (String × String)
  | [] => [(key, value)]
  | field :: rest =>
    if key < field.1 then (key, value) :: field :: rest
    else if key = field.1 then (key, value) :: rest
    else field :: putSorted key value rest

/-! ## The text of a bound document -/

/-- The text of a number. -/
def Number.text : Number → String
  | .whole n => toString n
  | .float x => Decimal.Layout.json.text .double x

/-- The text of a number of a document; one beyond every finite datum is shown as zero. -/
def numberText (n : Option Number) : String := (n.getD (.whole 0)).text

/-- The text of a string of a document; one that is no text is shown without characters. -/
def stringText (s : Option String) : String := Text.Quoted.quote (s.getD "")

mutual

/-- A document with the kind of every part named. -/
def shown : Json → String
  | .null => "Null"
  | .bool b => if b then "Bool(true)" else "Bool(false)"
  | .number n => "Number(" ++ numberText n ++ ")"
  | .string s => "String(" ++ stringText s ++ ")"
  | .array items => "Array [" ++ String.intercalate ", " (shownItems items) ++ "]"
  | .object fields =>
    let sorted := shownFields fields []
    "Object \x7b" ++
      String.intercalate ", " (sorted.map fun (k, v) => Text.Quoted.quote k ++ ": " ++ v) ++ "\x7d"

/-- The items of an array, each shown. -/
def shownItems : List Json → List String
  | [] => []
  | item :: rest => shown item :: shownItems rest

/-- The fields of an object, each shown and sorted into those before it. -/
def shownFields : List (Option String × Json) → List (String × String) → List (String × String)
  | [], sorted => sorted
  | (key, value) :: rest, sorted =>
    shownFields rest (putSorted (key.getD "") (shown value) sorted)

end

/-! ## Access -/

/-- The number, if it is whole. -/
def int? : Json → Option Int
  | .number (some (.whole n)) => some n
  | _ => none

/-- The text of a string. -/
def text? : Json → Option String
  | .string s => s
  | _ => none

/-- The items of an array, each read by `f`. -/
def list? {α : Type} (f : Json → Option α) : Json → Option (List α)
  | .array items => items.mapM f
  | _ => none

/-- The value of the field of this name; of several the last. -/
def field? (key : String) : Json → Option Json
  | .object fields => (fields.reverse.find? fun field => field.1 == some key).map Prod.snd
  | _ => none

end Json

end ParamSql
