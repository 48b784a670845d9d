/-!
# Binary floating-point data

A datum of a binary format is a significand times a power of two, an infinity or no number.
`Format.round` takes a positive rational to the nearest datum, a half to the even significand, in
exact arithmetic on natural numbers.

Results:
* `divHalfEven_eq_iff`: which whole number a quotient is rounded to.
-/

namespace ParamSql.Decimal

/-- A binary format: digits of the significand, and the range of the exponent of its last digit. -/
structure Format where
  precision : Nat
  minExponent : Int
  maxExponent : Int

/-- Double precision. -/
def Format.double : Format := ⟨53, -1074, 971⟩

/-- Single precision. -/
def Format.single : Format := ⟨24, -149, 104⟩

/-- A datum of a binary format: `finite` stands for `significand * 2 ^ exponent`. -/
inductive Binary where
  | nan
  | infinite (negative : Bool)
  | finite (negative : Bool) (significand : Nat) (exponent : Int)
  deriving DecidableEq, Repr

/-! ## Powers -/

/-- A power of two. -/
def twoTo (k : Nat) : Nat := Nat.pow 2 k

/-- A power of ten. -/
def tenTo (k : Nat) : Nat := Nat.pow 10 k

theorem twoTo_pos (k : Nat) : 0 < twoTo k := Nat.two_pow_pos k

theorem tenTo_pos (k : Nat) : 0 < tenTo k := Nat.pow_pos (by decide)

/-! ## Rounding -/

/-- The quotient rounded to the nearest whole number, a half to the even neighbour. -/
def divHalfEven (num den : Nat) : Nat :=
  let q := num / den
  let r := num % den
  if 2 * r > den ∨ (2 * r = den ∧ q % 2 = 1) then q + 1 else q

/-- The whole number is nearest to the quotient, and even if the quotient is halfway. -/
structure NearestEven (num den q : Nat) : Prop where
  low : 2 * (den * q) ≤ 2 * num + den
  high : 2 * num ≤ 2 * (den * q) + den
  tie : 2 * (den * q) = 2 * num + den ∨ 2 * num = 2 * (den * q) + den → q % 2 = 0

theorem divHalfEven_nearest (num : Nat) {den : Nat} (h : 0 < den) :
    NearestEven num den (divHalfEven num den) := by
  have hdiv := Nat.div_add_mod num den
  have hmod := Nat.mod_lt num h
  rw [divHalfEven]
  split
  · rename_i hup
    constructor <;> rw [Nat.mul_add] <;> omega
  · constructor <;> omega

theorem NearestEven.divHalfEven_eq {num den q : Nat} (h : 0 < den) (hq : NearestEven num den q) :
    divHalfEven num den = q := by
  have hdiv := Nat.div_add_mod num den
  have hmod := Nat.mod_lt num h
  obtain ⟨hlow, hhigh, htie⟩ := hq
  have hbelow : num / den ≤ q := by
    refine Nat.le_of_not_lt fun hlt => ?_
    have hstep := Nat.mul_le_mul_left den (Nat.succ_le_of_lt hlt)
    rw [Nat.succ_eq_add_one, Nat.mul_add] at hstep
    omega
  have habove : q ≤ num / den + 1 := by
    refine Nat.le_of_not_lt fun hlt => ?_
    have hstep := Nat.mul_le_mul_left den (Nat.succ_le_of_lt hlt)
    rw [Nat.succ_eq_add_one, Nat.mul_add, Nat.mul_add] at hstep
    omega
  rw [divHalfEven]
  obtain rfl | rfl : q = num / den ∨ q = num / den + 1 := by omega
  · rw [if_neg (by omega)]
  · rw [Nat.mul_add] at hlow hhigh htie
    rw [if_pos (by omega)]

theorem divHalfEven_eq_iff (num : Nat) {den : Nat} (h : 0 < den) (q : Nat) :
    divHalfEven num den = q ↔ NearestEven num den q :=
  ⟨fun hq => hq ▸ divHalfEven_nearest num h, NearestEven.divHalfEven_eq h⟩

/-- The rational `num / den` in units of `2 ^ e`, as a numerator and a denominator. -/
def inUnits (num den : Nat) (e : Int) : Nat × Nat :=
  (num * twoTo (-e).toNat, den * twoTo e.toNat)

namespace Format

/-- The exponent of the last significant digit of the positive rational `num / den`: the least one
of the format for which the whole part of the significand has at most `precision` digits. -/
def lastDigit (f : Format) (num den : Nat) : Int :=
  let e := max f.minExponent ((num.log2 : Int) - den.log2 - f.precision)
  let (n, d) := inUnits num den e
  if n / d < twoTo f.precision then e else e + 1

/-- The datum nearest to `num / den`, a half going to the even significand. Beyond the largest
finite datum it is an infinity. -/
def round (f : Format) (negative : Bool) (num den : Nat) : Binary :=
  if num = 0 then .finite negative 0 f.minExponent
  else
    let e := f.lastDigit num den
    let (n, d) := inUnits num den e
    let m := divHalfEven n d
    let (m, e) := if m = twoTo f.precision then (twoTo (f.precision - 1), e + 1) else (m, e)
    if e > f.maxExponent then .infinite negative else .finite negative m e

/-- The datum nearest to `digits * 10 ^ exponent`. A decimal exponent so far from zero that the
result is beyond doubt is not multiplied out. -/
def roundDecimal (f : Format) (negative : Bool) (digits : Nat) (exponent : Int) : Binary :=
  let point := (Nat.toDigits 10 digits).length + exponent
  if digits = 0 ∨ point < -400 then .finite negative 0 f.minExponent
  else if point > 400 then .infinite negative
  else f.round negative (digits * tenTo exponent.toNat) (tenTo (-exponent).toNat)

end Format

end ParamSql.Decimal
