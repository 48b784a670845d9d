import ParamSql.Decimal.Binary

/-!
# Reading a decimal

`Written` is a decimal as it is written: sign, digits before and after the point, exponent. `read?`
takes a text apart and `nearest` is the datum closest to what was written.

Results:
* `ofDigits_toDigits`: the digits of a number stand for it.
-/

namespace ParamSql.Decimal

/-- The number that a row of digits stands for. -/
def ofDigits (digits : List Char) : Nat := Nat.ofDigitChars 10 digits 0

theorem ofDigits_toDigits (n : Nat) : ofDigits (Nat.toDigits 10 n) = n :=
  Nat.ofDigitChars_ten_toDigits

theorem toDigits_cons (n : Nat) : ∃ d ds, Nat.toDigits 10 n = d :: ds ∧ d.isDigit = true := by
  obtain ⟨d, ds, hds⟩ := List.exists_cons_of_ne_nil (Nat.toDigits_ne_nil (b := 10) (n := n))
  exact ⟨d, ds, hds,
    Nat.isDigit_of_mem_toDigits (by decide) (by decide) (hds ▸ List.mem_cons_self)⟩

/-- A decimal as it is written. -/
structure Written where
  negative : Bool
  whole : List Char
  fraction : List Char
  exponent : Int

/-- The datum of the format nearest to a written decimal. -/
def Written.nearest (w : Written) (f : Format) : Binary :=
  f.roundDecimal w.negative (ofDigits (w.whole ++ w.fraction)) (w.exponent - w.fraction.length)

/-- A sign in front, if there is one. -/
def readSign : List Char → Bool × List Char
  | '-' :: rest => (true, rest)
  | '+' :: rest => (false, rest)
  | cs => (false, cs)

/-- An exponent, to the end of the text: nothing, or `e` with an optional sign and digits. -/
def readExponent? : List Char → Option Int
  | [] => some 0
  | c :: rest =>
    let (negative, digits) := readSign rest
    if (c = 'e' ∨ c = 'E') ∧ !digits.isEmpty ∧ digits.all Char.isDigit then
      some (if negative then -(ofDigits digits : Int) else ofDigits digits)
    else none

/-- The digits after a point, and what follows them. -/
def readFraction : List Char → List Char × List Char
  | '.' :: rest => (rest.takeWhile Char.isDigit, rest.dropWhile Char.isDigit)
  | cs => ([], cs)

/-- An unsigned decimal, to the end of the text: digits on at least one side of the point. -/
def readUnsigned? (negative : Bool) (cs : List Char) : Option Written :=
  let whole := cs.takeWhile Char.isDigit
  let (fraction, rest) := readFraction (cs.dropWhile Char.isDigit)
  if whole.isEmpty ∧ fraction.isEmpty then none
  else (readExponent? rest).map fun exponent => ⟨negative, whole, fraction, exponent⟩

/-- Reads a floating-point text: a decimal, or in any case of letters a word for an infinity or for
no number, with an optional sign. -/
def read? (f : Format) (s : String) : Option Binary :=
  let (negative, cs) := readSign s.toList
  let word := String.ofList (cs.map Char.toLower)
  if word = "inf" ∨ word = "infinity" then some (.infinite negative)
  else if word = "nan" then some .nan
  else (readUnsigned? negative cs).map (·.nearest f)

end ParamSql.Decimal
