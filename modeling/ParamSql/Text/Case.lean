/-!
# Letters without regard to case

Words of SQL and names of result columns are compared without regard to the case of the letters of
ASCII. Other letters are as they are.
-/

namespace ParamSql.Text

/-- The letters of ASCII in upper case, all other characters unchanged. -/
def upper (s : String) : String := String.ofList (s.toList.map Char.toUpper)

end ParamSql.Text
