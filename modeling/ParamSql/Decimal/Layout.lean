import ParamSql.Decimal.Shortest

/-!
# The text of a floating-point datum

The shortest digits are laid out with a decimal point where the exponent of the first digit lies
in the positional range of a `Layout`, and with an exponent outside. A whole number keeps one zero
after its point. An exponent has no leading zeros; whether a positive one has a sign is up to the
layout.
-/

namespace ParamSql.Decimal

/-- The exponents of the first digit that are written positionally, both ends included, whether a
positive exponent has a plus sign, and which of two equally near decimals is written. -/
structure Layout where
  lowest : Int
  highest : Int
  plus : Bool
  tie : Tie

namespace Layout

/-- Floating-point values stand with a point from 0.0001 up to below 10^16, and a tie goes up. -/
def value : Layout := ⟨-4, 15, false, .up⟩

/-- Numbers of a JSON document stand with a point from 0.00001 up to below 10^16, their exponents
have a sign in any case, and a tie goes to the even digit. -/
def json : Layout := ⟨-5, 15, true, .even⟩

/-- The digits `d₁d₂…` of a number whose first digit counts `10 ^ k`, with a point. -/
def positional (digits : List Char) (k : Int) : List Char :=
  if k < 0 then
    '0' :: '.' :: (List.replicate (-k - 1).toNat '0' ++ digits)
  else
    let whole := k.toNat + 1
    let fraction := digits.drop whole
    digits.take whole ++ List.replicate (whole - digits.length) '0' ++
      '.' :: (if fraction.isEmpty then ['0'] else fraction)

/-- The text of an exponent. -/
def exponent (l : Layout) (k : Int) : List Char :=
  let sign := if k < 0 then ['-'] else if l.plus then ['+'] else []
  'e' :: (sign ++ Nat.toDigits 10 k.natAbs)

/-- The same number with an exponent; a single digit has no point. -/
def scientific (l : Layout) (digits : List Char) (k : Int) : List Char :=
  let mantissa :=
    match digits with
    | d :: rest => if rest.isEmpty then [d] else d :: '.' :: rest
    | [] => []
  mantissa ++ l.exponent k

/-- The text of `significand * 10 ^ exponent`, for a positive significand. -/
def digits (l : Layout) (significand : Nat) (exponent : Int) : List Char :=
  let all := Nat.toDigits 10 significand
  let k := exponent + all.length - 1
  let kept := (all.reverse.dropWhile (· = '0')).reverse
  if l.lowest ≤ k ∧ k ≤ l.highest then positional kept k else l.scientific kept k

/-- The text of a datum of the format. -/
def text (l : Layout) (f : Format) : Binary → String
  | .nan => "NaN"
  | .infinite negative => if negative then "-inf" else "inf"
  | .finite negative m e =>
    let unsigned :=
      if m = 0 then ['0', '.', '0']
      else
        let (significand, exponent) := shortest f l.tie m e
        l.digits significand exponent
    String.ofList (if negative then '-' :: unsigned else unsigned)

/-! ## The ends of the positional ranges -/

example : value.digits 1 (-4) = "0.0001".toList ∧ value.digits 99 (-6) = "9.9e-5".toList := by
  decide +kernel

example : value.digits 12345 11 = "1234500000000000.0".toList ∧
    value.digits 1 16 = "1e16".toList := by
  decide +kernel

example : json.digits 1 (-5) = "0.00001".toList ∧ json.digits 1 (-6) = "1e-6".toList := by
  decide +kernel

example : json.digits 1 15 = "1000000000000000.0".toList ∧
    json.digits 15 15 = "1.5e+16".toList := by
  decide +kernel

example : value.text .double (.finite false 3602879701896397 (-55)) = "0.1" := by
  decide +kernel

example : value.text .double (.finite false 4503599627370497 (-2)) = "1125899906842624.3" ∧
    json.text .double (.finite false 4503599627370497 (-2)) = "1125899906842624.2" := by
  decide +kernel

example : value.text .single (.finite true 10485760 (-22)) = "-2.5" := by
  decide +kernel

end Layout

end ParamSql.Decimal
