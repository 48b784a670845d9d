import ParamSql.Json

/-!
# Bound values

The values that a statement binds to its placeholders, and the text in which they are shown. The
statements themselves never look at a value: they are generic in its type.

Models `Param`.
-/

namespace ParamSql

/-- A value without parts. -/
inductive Scalar where
  | bool (b : Bool)
  | int (n : Int)
  | double (x : Decimal.Binary)
  | single (x : Decimal.Binary)
  | text (s : String)
  deriving DecidableEq, Repr

/-- A bound value (`Param`). -/
inductive Value where
  | scalar (s : Scalar)
  | optional (s : Option Scalar)
  | list (items : List Scalar)
  | json (document : Json)

namespace Scalar

/-- The text of a scalar; a text stands in quotes. -/
def shown : Scalar → String
  | .bool b => if b then "true" else "false"
  | .int n => toString n
  | .double x => Decimal.Layout.value.text .double x
  | .single x => Decimal.Layout.value.text .single x
  | .text s => Text.Quoted.quote s

end Scalar

namespace Value

/-- A bound whole number. -/
def int (n : Int) : Value := .scalar (.int n)

/-- The text of a bound value. -/
def shown : Value → String
  | .scalar s => s.shown
  | .optional none => "None"
  | .optional (some s) => "Some(" ++ s.shown ++ ")"
  | .list items => "[" ++ String.intercalate ", " (items.map Scalar.shown) ++ "]"
  | .json document => document.shown

end Value

end ParamSql
