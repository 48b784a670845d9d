import ParamSql.Decimal.Binary

/-!
# The shortest decimal that reads back

For a positive datum `m * 2 ^ e` of a binary format, `shortest` is the decimal with the fewest
significant digits among those that round back to the datum, and of these the nearest one; a `Tie`
says which of two equally near ones it is.

The decimals with `n` digits around the datum lie on a grid of powers of ten. The two grid points
next to the datum are tested against the interval of reals that round to it, for one digit, two
digits and so on.
-/

namespace ParamSql.Decimal

/-- The reals that round to a datum, all three bounds in units of `1 / den`: from `low` through the
datum itself to `high`. The ends belong to it when `closed`. -/
structure Interval where
  low : Nat
  datum : Nat
  high : Nat
  den : Nat
  closed : Bool

/-- The interval of the datum `m * 2 ^ e`. The gap below a power of two is half as wide. -/
def Interval.ofDatum (f : Format) (m : Nat) (e : Int) : Interval :=
  let unit := twoTo e.toNat
  let narrow := m = twoTo (f.precision - 1) ∧ e > f.minExponent
  { low := (if narrow then 4 * m - 1 else 4 * m - 2) * unit
    datum := 4 * m * unit
    high := (4 * m + 2) * unit
    den := 4 * twoTo (-e).toNat
    closed := m % 2 = 0 }

/-- Whether the rational `num / scale` lies in the interval. -/
def Interval.within (i : Interval) (num scale : Nat) : Bool :=
  let x := num * i.den
  if i.closed then i.low * scale ≤ x && x ≤ i.high * scale
  else i.low * scale < x && x < i.high * scale

/-- Which of two equally near decimals is taken. -/
inductive Tie where
  /-- The larger one. -/
  | up
  /-- The one with an even last digit. -/
  | even
  deriving DecidableEq, Repr

/-- Whether the lower of two neighbours on a grid is taken if the datum is halfway between them. -/
def Tie.keepsLower : Tie → (below : Nat) → Bool
  | .up, _ => false
  | .even, below => below % 2 = 0

/-- The number of decimal digits. -/
def digitCount (n : Nat) : Nat :=
  (Nat.toDigits 10 n).length

/-- The exponent `k` of the first digit: `10 ^ k ≤ num / den < 10 ^ (k + 1)`. -/
def firstDigit (num den : Nat) : Int :=
  let k : Int := (digitCount num : Int) - digitCount den
  if den * tenTo k.toNat ≤ num * tenTo (-k).toNat then k else k - 1

/-- The grid point of `10 ^ k` that is shortest for the interval, if one lies in it: the nearer of
the two neighbours of the datum. -/
def Interval.onGrid? (i : Interval) (tie : Tie) (k : Int) : Option Nat :=
  let up := tenTo k.toNat
  let scale := tenTo (-k).toNat
  let below := i.datum * scale / (i.den * up)
  let above := below + 1
  let inside (n : Nat) := i.within (n * up) scale
  match inside below, inside above with
  | true, true =>
    -- The distances from the datum, over a common denominator.
    let down := i.datum * scale - below * up * i.den
    let rise := above * up * i.den - i.datum * scale
    some (if down < rise || (down = rise && tie.keepsLower below) then below else above)
  | true, false => some below
  | false, true => some above
  | false, false => none

/-- Tries grids of `10 ^ k`, `10 ^ (k - 1)`, …; each has one more digit than the one before. -/
def Interval.search (i : Interval) (tie : Tie) : (digits : Nat) → (k : Int) → Nat × Int
  | 0, k => ((i.onGrid? tie k).getD 0, k)
  | digits + 1, k =>
    match i.onGrid? tie k with
    | some n => (n, k)
    | none => i.search tie digits (k - 1)

/-- The shortest decimal of the positive datum `m * 2 ^ e`: a whole number and a power of ten.
Seventeen digits always suffice for the two formats of `Binary`. -/
def shortest (f : Format) (tie : Tie) (m : Nat) (e : Int) : Nat × Int :=
  let i := Interval.ofDatum f m e
  i.search tie 17 (firstDigit i.datum i.den)

end ParamSql.Decimal
