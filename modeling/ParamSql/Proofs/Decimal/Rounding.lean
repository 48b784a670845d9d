import Mathlib.Algebra.Order.Field.Power
import Mathlib.Tactic.FieldSimp
import Mathlib.Tactic.Linarith
import Mathlib.Tactic.NormNum
import Mathlib.Tactic.Positivity
import ParamSql.Proofs.Decimal.Shortest

/-!
# Rounding to a datum

A value is taken in units of the last digit that its significand can have, and the whole number
nearest to it is the significand. So the values that round to a datum are those of its interval, and
every value rounds to a datum that the format has.

Results:
* `nearestEven_iff`, `divHalfEven_inUnits_iff`: the significand.
* `Format.lastDigit_isLastDigit`: the exponent.
* `Format.round_eq_iff`: which values are rounded to a datum.
* `Format.has_round`: all values.
-/

namespace ParamSql.Decimal

/-! ## The significand -/

/-- The nearest whole number, seen in the rationals. -/
theorem nearestEven_iff (num : Nat) {den : Nat} (h : 0 < den) (q : Nat) :
    NearestEven num den q ↔ (q : ℚ) - 1 / 2 ≤ num / den ∧ (num : ℚ) / den ≤ q + 1 / 2 ∧
      ((q : ℚ) - 1 / 2 = num / den ∨ (num : ℚ) / den = q + 1 / 2 → q % 2 = 0) := by
  have hpos : (0 : ℚ) < den := by exact_mod_cast h
  have hlow : 2 * (den * q) ≤ 2 * num + den ↔ (q : ℚ) - 1 / 2 ≤ num / den := by
    rw [le_div_iff₀ hpos, ← Nat.cast_le (α := ℚ)]
    push_cast
    constructor <;> intro h <;> linarith
  have hhigh : 2 * num ≤ 2 * (den * q) + den ↔ (num : ℚ) / den ≤ q + 1 / 2 := by
    rw [div_le_iff₀ hpos, ← Nat.cast_le (α := ℚ)]
    push_cast
    constructor <;> intro h <;> linarith
  have hdown : 2 * (den * q) = 2 * num + den ↔ (q : ℚ) - 1 / 2 = num / den := by
    rw [eq_div_iff hpos.ne', ← Nat.cast_inj (R := ℚ)]
    push_cast
    constructor <;> intro h <;> linarith
  have hup : 2 * num = 2 * (den * q) + den ↔ (num : ℚ) / den = q + 1 / 2 := by
    rw [div_eq_iff hpos.ne', ← Nat.cast_inj (R := ℚ)]
    push_cast
    constructor <;> intro h <;> linarith
  rw [← hlow, ← hhigh, ← hdown, ← hup]
  exact ⟨fun ⟨low, high, tie⟩ => ⟨low, high, tie⟩, fun ⟨low, high, tie⟩ => ⟨low, high, tie⟩⟩

theorem twoTo_cast (k : Nat) : (twoTo k : ℚ) = 2 ^ k := by
  simp [twoTo]

theorem tenTo_cast (k : Nat) : (tenTo k : ℚ) = 10 ^ k := by
  simp [tenTo]

theorem twoTo_eq_double {k : Nat} (h : 0 < k) : twoTo k = 2 * twoTo (k - 1) := by
  obtain ⟨k, rfl⟩ := Nat.exists_eq_add_one_of_ne_zero h.ne'
  exact Nat.pow_succ'

/-- A power is one power with a natural exponent over another. -/
theorem pow_toNat_div (b : ℚ) (k : Int) : b ^ k.toNat / b ^ (-k).toNat = b ^ k := by
  obtain ⟨n, rfl | rfl⟩ := k.eq_nat_or_neg
  · simp
  · simp

/-! ## The exponent of the last digit -/

theorem inUnits_ratio (num den : Nat) (e : Int) :
    ((inUnits num den e).1 : ℚ) / (inUnits num den e).2 = num / den / 2 ^ e := by
  rw [← pow_toNat_div 2 e, inUnits]
  push_cast [twoTo_cast]
  field_simp

theorem inUnits_pos (num : Nat) {den : Nat} (h : 0 < den) (e : Int) : 0 < (inUnits num den e).2 :=
  Nat.mul_pos h (twoTo_pos _)

/-- The significand in units of an exponent, seen in the rationals. -/
theorem divHalfEven_inUnits_iff (num : Nat) {den : Nat} (h : 0 < den) (e : Int) (q : Nat) :
    divHalfEven (inUnits num den e).1 (inUnits num den e).2 = q ↔
      (q : ℚ) - 1 / 2 ≤ num / den / 2 ^ e ∧ (num : ℚ) / den / 2 ^ e ≤ q + 1 / 2 ∧
        ((q : ℚ) - 1 / 2 = num / den / 2 ^ e ∨ (num : ℚ) / den / 2 ^ e = q + 1 / 2 →
          q % 2 = 0) := by
  rw [divHalfEven_eq_iff _ (inUnits_pos num h e), nearestEven_iff _ (inUnits_pos num h e),
    inUnits_ratio]

/-- The logarithms of numerator and denominator place the quotient between two powers of two. -/
theorem ratio_between {num den : Nat} (hnum : 0 < num) (hden : 0 < den) :
    (2 : ℚ) ^ ((num.log2 : Int) - den.log2 - 1) < num / den ∧
      (num : ℚ) / den < 2 ^ ((num.log2 : Int) - den.log2 + 1) := by
  have hnum1 : (2 : ℚ) ^ num.log2 ≤ num := by exact_mod_cast Nat.log2_self_le (by omega)
  have hnum2 : (num : ℚ) < 2 ^ (num.log2 + 1) := by exact_mod_cast Nat.lt_log2_self
  have hden1 : (2 : ℚ) ^ den.log2 ≤ den := by exact_mod_cast Nat.log2_self_le (by omega)
  have hden2 : (den : ℚ) < 2 ^ (den.log2 + 1) := by exact_mod_cast Nat.lt_log2_self
  have hpos : (0 : ℚ) < den := by exact_mod_cast hden
  constructor
  · rw [lt_div_iff₀ hpos]
    calc (2 : ℚ) ^ ((num.log2 : Int) - den.log2 - 1) * den
        < 2 ^ ((num.log2 : Int) - den.log2 - 1) * 2 ^ (den.log2 + 1) := by gcongr
      _ = 2 ^ num.log2 := by
        rw [← zpow_natCast, ← zpow_add₀ two_ne_zero, ← zpow_natCast]
        congr 1
        push_cast
        ring
      _ ≤ num := hnum1
  · rw [div_lt_iff₀ hpos]
    calc (num : ℚ) < 2 ^ (num.log2 + 1) := hnum2
      _ = 2 ^ ((num.log2 : Int) - den.log2 + 1) * 2 ^ den.log2 := by
        rw [← zpow_natCast, ← zpow_natCast, ← zpow_add₀ two_ne_zero]
        congr 1
        push_cast
        ring
      _ ≤ 2 ^ ((num.log2 : Int) - den.log2 + 1) * den := by gcongr

namespace Format

/-- The exponent for which the significand of the value uses all digits of the format, or as many
as the least exponent leaves. -/
structure IsLastDigit (f : Format) (x : ℚ) (e : Int) : Prop where
  least : f.minExponent ≤ e
  high : x < 2 ^ (f.precision + e)
  low : e = f.minExponent ∨ (2 : ℚ) ^ (f.precision + e - 1) ≤ x

theorem IsLastDigit.le {f : Format} {x : ℚ} {d e : Int} (hd : f.IsLastDigit x d)
    (he : f.IsLastDigit x e) : e ≤ d := by
  rcases he.low with rfl | hlow
  · exact hd.least
  · have hlt := (zpow_lt_zpow_iff_right₀ (by norm_num : (1 : ℚ) < 2)).1 (hlow.trans_lt hd.high)
    omega

theorem IsLastDigit.unique {f : Format} {x : ℚ} {d e : Int} (hd : f.IsLastDigit x d)
    (he : f.IsLastDigit x e) : d = e :=
  le_antisymm (he.le hd) (hd.le he)

theorem lastDigit_isLastDigit (f : Format) {num den : Nat} (hnum : 0 < num) (hden : 0 < den) :
    f.IsLastDigit (num / den) (f.lastDigit num den) := by
  obtain ⟨hlow, hhigh⟩ := ratio_between hnum hden
  have hone : (1 : ℚ) ≤ 2 := by norm_num
  have hfits (e : Int) : (inUnits num den e).1 / (inUnits num den e).2 < twoTo f.precision ↔
      (num : ℚ) / den < 2 ^ (f.precision + e) := by
    have hpos : (0 : ℚ) < (inUnits num den e).2 := by exact_mod_cast inUnits_pos num hden e
    rw [Nat.div_lt_iff_lt_mul (inUnits_pos num hden e), zpow_add₀ two_ne_zero, zpow_natCast,
      ← div_lt_iff₀ (by positivity), ← inUnits_ratio, div_lt_iff₀ hpos, ← twoTo_cast]
    exact_mod_cast Iff.rfl
  simp only [lastDigit, hfits]
  generalize (num : ℚ) / den = x at hlow hhigh
  split
  · rename_i hx
    refine ⟨by omega, hx, ?_⟩
    rcases Int.le_total ((num.log2 : Int) - den.log2 - f.precision) f.minExponent with hmax | hmax
    · exact .inl (max_eq_left hmax)
    · right
      rw [max_eq_right hmax]
      exact (zpow_le_zpow_right₀ hone (by omega)).trans hlow.le
  · rename_i hx
    refine ⟨by omega, hhigh.trans_le (zpow_le_zpow_right₀ hone (by omega)), .inr ?_⟩
    rw [not_lt] at hx
    exact (zpow_le_zpow_right₀ hone (by omega)).trans hx

end Format

/-! ## The interval of a datum -/

namespace Interval

/-- The value lies in the interval. -/
def Contains (i : Interval) (x : ℚ) : Prop :=
  (i.low < x * i.den ∨ i.closed = true ∧ i.low = x * i.den) ∧
    (x * i.den < i.high ∨ i.closed = true ∧ x * i.den = i.high)

theorem within_iff_contains {i : Interval} (num : Nat) {scale : Nat} (h : 0 < scale) :
    i.within num scale = true ↔ i.Contains (num / scale) := by
  have hpos : (0 : ℚ) < scale := by exact_mod_cast h
  rw [within_iff, Contains, div_mul_eq_mul_div, lt_div_iff₀ hpos, eq_div_iff hpos.ne',
    div_lt_iff₀ hpos, div_eq_iff hpos.ne']
  exact_mod_cast Iff.rfl

theorem has_iff_contains {i : Interval} (k : Int) (n : Nat) :
    i.has k n ↔ i.Contains (n * 10 ^ k) := by
  rw [has, within_iff_contains _ (tenTo_pos _), ← pow_toNat_div]
  push_cast [tenTo_cast]
  rw [mul_div_assoc]

end Interval

namespace Format

/-- The significand and the exponent of a positive datum as the format has it. -/
structure IsNormal (f : Format) (m : Nat) (e : Int) : Prop where
  least : f.minExponent ≤ e
  greatest : e ≤ f.maxExponent
  pos : 0 < m
  digits : m < twoTo f.precision
  full : e = f.minExponent ∨ twoTo (f.precision - 1) ≤ m

/-- The lowest value that is rounded to a datum, in units of its last digit: one half below it, or
below a power of two one quarter. -/
def lowest (f : Format) (m : Nat) (e : Int) : ℚ :=
  m - if m = twoTo (f.precision - 1) ∧ e > f.minExponent then 1 / 4 else 1 / 2

theorem sub_half_le_lowest (f : Format) (m : Nat) (e : Int) : (m : ℚ) - 1 / 2 ≤ f.lowest m e := by
  rw [lowest]
  split <;> linarith

theorem lt_or_eq_iff {a b : ℚ} {p : Prop} : (a < b ∨ p ∧ a = b) ↔ a ≤ b ∧ (a = b → p) := by
  constructor
  · rintro (hlt | ⟨hp, heq⟩)
    · exact ⟨hlt.le, fun heq => absurd heq hlt.ne⟩
    · exact ⟨heq.le, fun _ => hp⟩
  · rintro ⟨hle, hp⟩
    exact hle.lt_or_eq.imp_right fun heq => ⟨hp heq, heq⟩

/-- The interval of a datum in units of its last digit. Its ends belong to an even significand. -/
theorem contains_ofDatum_iff {f : Format} {m : Nat} (hm : 0 < m) {e : Int} {x : ℚ} :
    (Interval.ofDatum f m e).Contains x ↔
      (f.lowest m e ≤ x / 2 ^ e ∧ (f.lowest m e = x / 2 ^ e → m % 2 = 0)) ∧
        x / 2 ^ e ≤ m + 1 / 2 ∧ (x / 2 ^ e = m + 1 / 2 → m % 2 = 0) := by
  have hunit : (0 : ℚ) < 4 * 2 ^ e.toNat := by positivity
  have hscaled : x * (Interval.ofDatum f m e).den = x / 2 ^ e * (4 * 2 ^ e.toNat) := by
    rw [← pow_toNat_div 2 e, Interval.ofDatum]
    push_cast [twoTo_cast]
    field_simp
  have hhigh : ((Interval.ofDatum f m e).high : ℚ) = (m + 1 / 2) * (4 * 2 ^ e.toNat) := by
    rw [Interval.ofDatum]
    push_cast [twoTo_cast]
    ring
  have hlow : ((Interval.ofDatum f m e).low : ℚ) = f.lowest m e * (4 * 2 ^ e.toNat) := by
    rw [Interval.ofDatum, lowest]
    push_cast [twoTo_cast]
    split
    · rw [Nat.cast_sub (by omega)]
      push_cast
      ring
    · rw [Nat.cast_sub (by omega)]
      push_cast
      ring
  have hclosed : (Interval.ofDatum f m e).closed = true ↔ m % 2 = 0 := by
    simp [Interval.ofDatum]
  rw [Interval.Contains, hscaled, hhigh, hlow, hclosed, lt_or_eq_iff, lt_or_eq_iff,
    mul_le_mul_iff_left₀ hunit, mul_le_mul_iff_left₀ hunit, mul_left_inj' hunit.ne',
    mul_left_inj' hunit.ne']

variable {f : Format} {m : Nat} {e : Int}

/-- The exponent of the last digit in units of its own. -/
theorem isLastDigit_iff (hprecision : 0 < f.precision) (x : ℚ) :
    f.IsLastDigit x e ↔ f.minExponent ≤ e ∧ x / 2 ^ e < twoTo f.precision ∧
      (e = f.minExponent ∨ (twoTo (f.precision - 1) : ℚ) ≤ x / 2 ^ e) := by
  have hunit : (0 : ℚ) < 2 ^ e := by positivity
  have hhigh : x / 2 ^ e < twoTo f.precision ↔ x < 2 ^ (f.precision + e) := by
    rw [div_lt_iff₀ hunit, twoTo_cast, ← zpow_natCast, ← zpow_add₀ two_ne_zero]
  have hlow : (twoTo (f.precision - 1) : ℚ) ≤ x / 2 ^ e ↔ 2 ^ (f.precision + e - 1) ≤ x := by
    rw [le_div_iff₀ hunit, twoTo_cast, ← zpow_natCast, ← zpow_add₀ two_ne_zero,
      show (f.precision : Int) + e - 1 = (f.precision - 1 : Nat) + e by omega]
  rw [hhigh, hlow]
  exact ⟨fun ⟨least, high, low⟩ => ⟨least, high, low⟩, fun ⟨least, high, low⟩ => ⟨least, high, low⟩⟩

theorem zpow_sub_one_units (x : ℚ) (e : Int) : x / 2 ^ (e - 1) = 2 * (x / 2 ^ e) := by
  rw [zpow_sub_one₀ two_ne_zero]
  field_simp

/-- A value in the interval of a datum is rounded to the datum. Just below a power of two it is
taken in finer units first, in which it is rounded up to the power. -/
theorem round_eq (hprecision : 0 < f.precision) (h : f.IsNormal m e) (negative : Bool)
    {num den : Nat} (hden : 0 < den) (hin : (Interval.ofDatum f m e).Contains (num / den)) :
    f.round negative num den = .finite negative m e := by
  obtain ⟨⟨hlow, hlowTie⟩, hhigh, hhighTie⟩ := (contains_ofDatum_iff h.pos).1 hin
  have hhalf := sub_half_le_lowest f m e
  have hpos : (1 : ℚ) ≤ m := by exact_mod_cast h.pos
  have hnum : 0 < num := by
    refine Nat.pos_of_ne_zero fun hzero => ?_
    rw [hzero, Nat.cast_zero, zero_div, zero_div] at hlow
    linarith
  have hlast := lastDigit_isLastDigit f hnum hden
  have htwice := twoTo_eq_double hprecision
  have hgreatest := h.greatest
  by_cases hcarry : m = twoTo (f.precision - 1) ∧ e > f.minExponent ∧ (num : ℚ) / den / 2 ^ e < m
  · obtain ⟨rfl, he, hbelow⟩ := hcarry
    rw [lowest, if_pos ⟨rfl, he⟩] at hlow
    have hdigit : f.lastDigit num den = e - 1 := by
      refine hlast.unique ((isLastDigit_iff hprecision _).2 ⟨by omega, ?_, .inr ?_⟩)
      · rw [zpow_sub_one_units, htwice]
        push_cast
        linarith
      · rw [zpow_sub_one_units]
        linarith
    have hup : divHalfEven (inUnits num den (e - 1)).1 (inUnits num den (e - 1)).2 =
        twoTo f.precision := by
      refine (divHalfEven_inUnits_iff num hden _ _).2 ⟨?_, ?_, fun _ => by omega⟩
      · rw [zpow_sub_one_units, htwice]
        push_cast
        linarith
      · rw [zpow_sub_one_units, htwice]
        push_cast
        linarith
    simp only [round, hnum.ne', if_false, hdigit, hup, if_true, Int.sub_add_cancel]
    rw [if_neg (by omega)]
  · have hbelow : (m : ℚ) + 1 ≤ twoTo f.precision := by exact_mod_cast h.digits
    have hdigit : f.lastDigit num den = e := by
      refine hlast.unique ((isLastDigit_iff hprecision _).2 ⟨h.least, by linarith, ?_⟩)
      by_cases he : e = f.minExponent
      · exact .inl he
      · right
        have hleast := h.least
        rcases Nat.eq_or_lt_of_le (h.full.resolve_left he) with hm | hm
        · rw [hm]
          exact le_of_not_gt fun hlt => hcarry ⟨hm.symm, by omega, hlt⟩
        · have hm : (twoTo (f.precision - 1) : ℚ) + 1 ≤ m := by exact_mod_cast hm
          linarith
    have hsame : divHalfEven (inUnits num den e).1 (inUnits num den e).2 = m := by
      refine (divHalfEven_inUnits_iff num hden e m).2 ⟨by linarith, hhigh, fun htie => ?_⟩
      rcases htie with htie | htie
      · exact hlowTie (le_antisymm hlow (by linarith))
      · exact hhighTie htie
    simp only [round, hnum.ne', if_false, hdigit, hsame, h.digits.ne]
    rw [if_neg (by omega)]

/-- Only the values in the interval of a datum are rounded to the datum. -/
theorem contains_of_round_eq (hprecision : 1 < f.precision) (hm : 0 < m) {negative : Bool}
    {num den : Nat} (hden : 0 < den) (h : f.round negative num den = .finite negative m e) :
    (Interval.ofDatum f m e).Contains (num / den) := by
  rw [round] at h
  split at h
  · cases h
    contradiction
  · rename_i hnum
    have hprecision' := Nat.zero_lt_of_lt hprecision
    have hlast := lastDigit_isLastDigit f (Nat.pos_of_ne_zero hnum) hden
    generalize f.lastDigit num den = d at h hlast
    obtain ⟨hleast, hhigh, hlow⟩ := (isLastDigit_iff hprecision' _).1 hlast
    obtain ⟨q, hq⟩ : ∃ q, divHalfEven (inUnits num den d).1 (inUnits num den d).2 = q := ⟨_, rfl⟩
    obtain ⟨hdown, hup, htie⟩ := (divHalfEven_inUnits_iff num hden d q).1 hq
    simp only [hq] at h
    rw [contains_ofDatum_iff hm]
    by_cases hcarry : q = twoTo f.precision
    · simp only [hcarry, if_true] at h
      split at h
      · cases h
      · cases h
        have hnarrow : twoTo (f.precision - 1) = twoTo (f.precision - 1) ∧
            d + 1 > f.minExponent := ⟨rfl, by omega⟩
        have heven : twoTo (f.precision - 1) % 2 = 0 := by
          have hdouble := twoTo_eq_double (Nat.sub_pos_of_lt hprecision)
          omega
        have hunits := zpow_sub_one_units (num / den) (d + 1)
        rw [Int.add_sub_cancel] at hunits
        rw [hunits] at hdown hhigh
        rw [hcarry, twoTo_eq_double hprecision'] at hdown
        rw [twoTo_eq_double hprecision'] at hhigh
        push_cast at hdown hhigh
        rw [lowest, if_pos hnarrow]
        exact ⟨⟨by linarith, fun _ => heven⟩, by linarith, fun _ => heven⟩
    · simp only [hcarry, if_false] at h
      split at h
      · cases h
      · cases h
        refine ⟨?_, hup, fun heq => htie (.inr heq)⟩
        by_cases hnarrow : m = twoTo (f.precision - 1) ∧ e > f.minExponent
        · have hfull : (m : ℚ) ≤ num / den / 2 ^ e := by
            rw [hnarrow.1]
            exact hlow.resolve_left (by omega)
          rw [lowest, if_pos hnarrow]
          exact ⟨by linarith, fun heq => by linarith⟩
        · rw [lowest, if_neg hnarrow]
          exact ⟨hdown, fun heq => htie (.inl heq)⟩

/-- The interval of a datum holds exactly the values that are rounded to the datum. -/
theorem round_eq_iff (hprecision : 1 < f.precision) (h : f.IsNormal m e) (negative : Bool)
    (num : Nat) {den : Nat} (hden : 0 < den) : f.round negative num den = .finite negative m e ↔
      (Interval.ofDatum f m e).Contains (num / den) :=
  ⟨contains_of_round_eq hprecision h.pos hden,
    round_eq (Nat.zero_lt_of_lt hprecision) h negative hden⟩

/-- The datum is one that the format has, written with its significand and exponent there. -/
inductive Has (f : Format) : Binary → Prop where
  | nan : f.Has .nan
  | infinite (negative : Bool) : f.Has (.infinite negative)
  | zero (negative : Bool) : f.Has (.finite negative 0 f.minExponent)
  | normal (negative : Bool) {m : Nat} {e : Int} (h : f.IsNormal m e) :
      f.Has (.finite negative m e)

/-- Rounding gives data of the format only. -/
theorem has_round (hprecision : 0 < f.precision) (negative : Bool) (num : Nat) {den : Nat}
    (hden : 0 < den) : f.Has (f.round negative num den) := by
  rw [round]
  split
  · exact .zero negative
  · rename_i hnum
    have hlast := lastDigit_isLastDigit f (Nat.pos_of_ne_zero hnum) hden
    generalize f.lastDigit num den = e at hlast
    obtain ⟨hleast, hhigh, hlow⟩ := (isLastDigit_iff hprecision _).1 hlast
    obtain ⟨q, hq⟩ : ∃ q, divHalfEven (inUnits num den e).1 (inUnits num den e).2 = q := ⟨_, rfl⟩
    obtain ⟨hdown, hup, -⟩ := (divHalfEven_inUnits_iff num hden e q).1 hq
    have htwice := twoTo_eq_double hprecision
    have hpos := twoTo_pos (f.precision - 1)
    have hfits : q ≤ twoTo f.precision := by
      refine Nat.le_of_not_lt fun hlt => ?_
      have hlt : (twoTo f.precision : ℚ) + 1 ≤ q := by exact_mod_cast hlt
      linarith
    have hfull : e = f.minExponent ∨ twoTo (f.precision - 1) ≤ q := by
      refine hlow.imp_right fun hlow => Nat.le_of_not_lt fun hlt => ?_
      have hlt : (q : ℚ) + 1 ≤ twoTo (f.precision - 1) := by exact_mod_cast hlt
      linarith
    simp only [hq]
    by_cases hcarry : q = twoTo f.precision
    · simp only [hcarry, if_true]
      split
      · exact .infinite negative
      · rename_i hgreatest
        exact .normal negative ⟨by omega, by omega, hpos, by omega, .inr (Nat.le_refl _)⟩
    · simp only [hcarry, if_false]
      split
      · exact .infinite negative
      · rename_i hgreatest
        rcases Nat.eq_zero_or_pos q with rfl | hq
        · obtain rfl := hfull.resolve_right (by omega)
          exact .zero negative
        · exact .normal negative ⟨hleast, by omega, hq, by omega, hfull⟩

end Format

end ParamSql.Decimal
