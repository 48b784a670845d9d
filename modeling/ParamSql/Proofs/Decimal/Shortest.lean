import Mathlib.Tactic.Ring
import ParamSql.Decimal.Shortest

/-!
# The decimal of fewest digits

A grid has a point in the interval of a datum exactly if one of the two neighbours of the datum lies
in it, since the interval has no gaps. So the first grid on which a point is found is the coarsest
one that has any, and the decimal that is found reads back as the datum.

Results:
* `has_side`, `onGrid?_eq_none_iff`: the points of one grid.
* `prefers_of_onGrid?`: the point that is taken.
* `search_eq`: the run through the grids.
* `ofDatum_wide`: seventeen digits suffice for a datum of at most 53 binary digits.
* `shortest_coarsest`: the decimal of a datum.
-/

namespace ParamSql.Decimal

/-- The datum lies between the bounds. -/
structure Interval.Proper (i : Interval) : Prop where
  low : i.low < i.datum
  high : i.datum < i.high
  den : 0 < i.den

/-- A point of the grid of `10 ^ k` lies in the interval. -/
def Interval.has (i : Interval) (k : Int) (n : Nat) : Prop :=
  i.within (n * tenTo k.toNat) (tenTo (-k).toNat) = true

namespace Interval

variable {i : Interval} {tie : Tie} {k : Int} {n : Nat}

theorem ofDatum_proper (f : Format) {m : Nat} (h : 0 < m) (e : Int) : (ofDatum f m e).Proper where
  low := Nat.mul_lt_mul_of_pos_right (by split <;> omega) (twoTo_pos _)
  high := Nat.mul_lt_mul_of_pos_right (by omega) (twoTo_pos _)
  den := Nat.mul_pos (by decide) (twoTo_pos _)

theorem within_iff {num scale : Nat} :
    i.within num scale = true ↔
      (i.low * scale < num * i.den ∨ i.closed = true ∧ i.low * scale = num * i.den) ∧
        (num * i.den < i.high * scale ∨ i.closed = true ∧ num * i.den = i.high * scale) := by
  rw [within]
  cases i.closed with
  | true => simp [Nat.le_iff_lt_or_eq]
  | false => simp

/-- Between a number of the interval and the datum all numbers belong to it. -/
theorem within_of_le_datum (h : i.Proper) {a b scale : Nat} (hscale : 0 < scale)
    (ha : i.within a scale = true) (hab : a ≤ b) (hb : b * i.den ≤ i.datum * scale) :
    i.within b scale = true := by
  rw [within_iff] at ha ⊢
  have hstep : a * i.den ≤ b * i.den := Nat.mul_le_mul_right i.den hab
  have hhigh : i.datum * scale < i.high * scale := Nat.mul_lt_mul_of_pos_right h.high hscale
  refine ⟨?_, .inl (by omega)⟩
  rcases ha.1 with hlow | ⟨hclosed, hlow⟩
  · exact .inl (by omega)
  · rcases Nat.lt_or_eq_of_le hstep with hlt | heq
    · exact .inl (by omega)
    · exact .inr ⟨hclosed, by omega⟩

theorem within_of_datum_le (h : i.Proper) {a b scale : Nat} (hscale : 0 < scale)
    (hb : i.within b scale = true) (hab : a ≤ b) (ha : i.datum * scale ≤ a * i.den) :
    i.within a scale = true := by
  rw [within_iff] at hb ⊢
  have hstep : a * i.den ≤ b * i.den := Nat.mul_le_mul_right i.den hab
  have hlow : i.low * scale < i.datum * scale := Nat.mul_lt_mul_of_pos_right h.low hscale
  refine ⟨.inl (by omega), ?_⟩
  rcases hb.2 with hhigh | ⟨hclosed, hhigh⟩
  · exact .inl (by omega)
  · rcases Nat.lt_or_eq_of_le hstep with hlt | heq
    · exact .inl (by omega)
    · exact .inr ⟨hclosed, by omega⟩

/-- The grid point next to the datum from below. -/
def below (i : Interval) (k : Int) : Nat :=
  i.datum * tenTo (-k).toNat / (i.den * tenTo k.toNat)

/-- The datum lies between its neighbours. -/
theorem between_neighbours (hproper : i.Proper) (k : Int) :
    i.below k * tenTo k.toNat * i.den ≤ i.datum * tenTo (-k).toNat ∧
      i.datum * tenTo (-k).toNat < (i.below k + 1) * tenTo k.toNat * i.den := by
  have hunit : 0 < i.den * tenTo k.toNat := Nat.mul_pos hproper.den (tenTo_pos _)
  rw [Nat.mul_assoc, Nat.mul_assoc, Nat.mul_comm (tenTo k.toNat), Nat.add_mul, Nat.one_mul]
  exact ⟨Nat.div_mul_le_self _ _, Nat.lt_div_mul_add hunit⟩

theorem onGrid?_eq_some (h : i.onGrid? tie k = some n) : i.has k n := by
  simp only [onGrid?] at h
  split at h
  · rename_i hbelow habove
    simp only [Option.some.injEq] at h
    subst h
    split
    · exact hbelow
    · exact habove
  · rename_i hbelow _
    obtain rfl := Option.some.inj h
    exact hbelow
  · rename_i _ habove
    obtain rfl := Option.some.inj h
    exact habove
  · contradiction

/-- With a point of the grid the neighbour of the datum on the same side lies in the interval. -/
theorem has_side (hproper : i.Proper) (h : i.has k n) :
    n ≤ i.below k ∧ i.has k (i.below k) ∨ i.below k < n ∧ i.has k (i.below k + 1) := by
  have hscale : 0 < tenTo (-k).toNat := tenTo_pos _
  obtain ⟨hfloor, hceil⟩ := between_neighbours hproper k
  rcases Nat.lt_or_ge (i.below k) n with hn | hn
  · exact .inr ⟨hn, within_of_datum_le hproper hscale h (Nat.mul_le_mul_right _ hn)
      (Nat.le_of_lt hceil)⟩
  · exact .inl ⟨hn, within_of_le_datum hproper hscale h (Nat.mul_le_mul_right _ hn) hfloor⟩

/-- A grid has a point in the interval if it has one next to the datum. -/
theorem has_below_or_above (hproper : i.Proper) (h : i.has k n) :
    i.has k (i.below k) ∨ i.has k (i.below k + 1) :=
  (has_side hproper h).imp And.right And.right

theorem onGrid?_eq_none_iff (hproper : i.Proper) :
    i.onGrid? tie k = none ↔ ∀ n, ¬ i.has k n := by
  constructor
  · intro h n hn
    have hnext := has_below_or_above hproper hn
    simp only [onGrid?] at h
    split at h
    · contradiction
    · contradiction
    · contradiction
    · rename_i hbelow habove
      rcases hnext with hnext | hnext
      · exact absurd hnext (by simp only [has, below, hbelow]; decide)
      · exact absurd hnext (by simp only [has, below, habove]; decide)
  · intro h
    cases hgrid : i.onGrid? tie k with
    | none => rfl
    | some n => exact absurd (onGrid?_eq_some hgrid) (h n)

/-! ## The nearer neighbour -/

/-- The distance of a point of the grid from the datum, over a common denominator. -/
def distance (i : Interval) (k : Int) (n : Nat) : Nat :=
  n * tenTo k.toNat * i.den - i.datum * tenTo (-k).toNat +
    (i.datum * tenTo (-k).toNat - n * tenTo k.toNat * i.den)

/-- One point is preferred to another if it is nearer to the datum, or just as near and the one that
the tie takes. -/
def Prefers (i : Interval) (tie : Tie) (k : Int) (n other : Nat) : Prop :=
  i.distance k n < i.distance k other ∨ i.distance k n = i.distance k other ∧
    match tie with
    | .up => other ≤ n
    | .even => n = other ∨ n % 2 = 0

/-- Which neighbour is taken, and why not the other one. -/
theorem onGrid?_cases (hproper : i.Proper) (h : i.onGrid? tie k = some n) :
    n = i.below k ∧ (i.has k (i.below k + 1) → i.Prefers tie k (i.below k) (i.below k + 1)) ∨
      n = i.below k + 1 ∧ (i.has k (i.below k) → i.Prefers tie k (i.below k + 1) (i.below k)) := by
  obtain ⟨hfloor, hceil⟩ := between_neighbours hproper k
  have hdown : i.distance k (i.below k) =
      i.datum * tenTo (-k).toNat - i.below k * tenTo k.toNat * i.den := by
    rw [distance]
    omega
  have hrise : i.distance k (i.below k + 1) =
      (i.below k + 1) * tenTo k.toNat * i.den - i.datum * tenTo (-k).toNat := by
    rw [distance]
    omega
  simp only [Prefers, hdown, hrise]
  simp only [onGrid?] at h
  rw [← below] at h
  split at h
  · simp only [Option.some.injEq, Bool.or_eq_true, Bool.and_eq_true, decide_eq_true_eq] at h
    subst h
    split
    · rename_i hlower
      refine .inl ⟨rfl, fun _ => hlower.imp_right ?_⟩
      rintro ⟨heq, hkeeps⟩
      refine ⟨heq, ?_⟩
      cases tie with
      | up => exact absurd hkeeps Bool.false_ne_true
      | even => exact .inr (of_decide_eq_true hkeeps)
    · rename_i hlower
      refine .inr ⟨rfl, fun _ => ?_⟩
      rw [not_or, not_and] at hlower
      rcases Nat.lt_or_eq_of_le (Nat.le_of_not_lt hlower.1) with hlt | heq
      · exact .inl hlt
      · refine .inr ⟨heq, ?_⟩
        cases tie with
        | up => exact Nat.le_succ _
        | even =>
          have hodd : i.below k % 2 ≠ 0 :=
            of_decide_eq_false (Bool.eq_false_iff.2 (hlower.2 heq.symm))
          exact .inr (by omega)
  · rename_i _ habove
    obtain rfl := Option.some.inj h
    exact .inl ⟨rfl, fun hin => absurd hin (by simp only [has, habove]; decide)⟩
  · rename_i hbelow _
    obtain rfl := Option.some.inj h
    exact .inr ⟨rfl, fun hin => absurd hin (by simp only [has, hbelow]; decide)⟩
  · contradiction

theorem Prefers.refl (i : Interval) (tie : Tie) (k : Int) (n : Nat) : i.Prefers tie k n n := by
  cases tie with
  | up => exact .inr ⟨rfl, Nat.le_refl n⟩
  | even => exact .inr ⟨rfl, .inl rfl⟩

theorem Prefers.distance_le {other : Nat} (h : i.Prefers tie k n other) :
    i.distance k n ≤ i.distance k other := by
  rcases h with h | h
  · exact Nat.le_of_lt h
  · exact Nat.le_of_eq h.1

/-- Behind a neighbour of the datum the distance grows. -/
theorem distance_lt (hproper : i.Proper) {m : Nat} :
    (m < i.below k → i.distance k (i.below k) < i.distance k m) ∧
      (i.below k + 1 < m → i.distance k (i.below k + 1) < i.distance k m) := by
  obtain ⟨hfloor, hceil⟩ := between_neighbours hproper k
  have hunit : 0 < tenTo k.toNat * i.den := Nat.mul_pos (tenTo_pos _) hproper.den
  simp only [distance]
  rw [Nat.mul_assoc] at hfloor hceil
  simp only [Nat.mul_assoc]
  constructor
  · intro hm
    have hstep := Nat.mul_le_mul_right (tenTo k.toNat * i.den) (Nat.succ_le_of_lt hm)
    rw [Nat.succ_mul] at hstep
    omega
  · intro hm
    have hstep := Nat.mul_le_mul_right (tenTo k.toNat * i.den) (Nat.succ_le_of_lt hm)
    rw [Nat.succ_mul] at hstep
    omega

/-- Of all points of the grid in the interval the nearest to the datum is taken. -/
theorem prefers_of_onGrid? (hproper : i.Proper) (h : i.onGrid? tie k = some n) {other : Nat}
    (hother : i.has k other) : i.Prefers tie k n other := by
  obtain ⟨side, hside, hbehind⟩ : ∃ side, i.Prefers tie k n side ∧
      (other = side ∨ i.distance k side < i.distance k other) := by
    rcases has_side hproper hother with ⟨hle, hbelow⟩ | ⟨hlt, habove⟩
    · refine ⟨i.below k, ?_, ?_⟩
      · rcases onGrid?_cases hproper h with ⟨rfl, -⟩ | ⟨rfl, hprefers⟩
        · exact .refl i tie k _
        · exact hprefers hbelow
      · exact (Nat.eq_or_lt_of_le hle).imp_right (distance_lt hproper).1
    · refine ⟨i.below k + 1, ?_, ?_⟩
      · rcases onGrid?_cases hproper h with ⟨rfl, hprefers⟩ | ⟨rfl, -⟩
        · exact hprefers habove
        · exact .refl i tie k _
      · exact (Nat.eq_or_lt_of_le hlt).imp Eq.symm (distance_lt hproper).2
  rcases hbehind with rfl | hlt
  · exact hside
  · exact .inl (Nat.lt_of_le_of_lt hside.distance_le hlt)

/-! ## The run through the grids -/

/-- The search ends on the first grid with a point in the interval, or on the last grid. -/
theorem search_eq {digits : Nat} {j : Int} (h : i.search tie digits k = (n, j)) :
    j ≤ k ∧ (∀ l, j < l → l ≤ k → i.onGrid? tie l = none) ∧
      (i.onGrid? tie j = some n ∨ j = k - digits ∧ i.onGrid? tie j = none) := by
  induction digits generalizing k with
  | zero =>
    rw [search, Prod.mk.injEq] at h
    obtain ⟨rfl, rfl⟩ := h
    refine ⟨Int.le_refl k, fun l hl hk => by omega, ?_⟩
    cases i.onGrid? tie k with
    | none => exact .inr ⟨by simp, rfl⟩
    | some n => exact .inl rfl
  | succ digits ih =>
    rw [search] at h
    split at h
    · rename_i hgrid
      obtain ⟨rfl, rfl⟩ := Prod.mk.inj h
      exact ⟨Int.le_refl k, fun l hl hk => by omega, .inl hgrid⟩
    · rename_i hgrid
      obtain ⟨hj, hcoarser, hfound⟩ := ih h
      refine ⟨by omega, fun l hl hk => ?_, ?_⟩
      · rcases Int.lt_or_eq_of_le hk with hlt | rfl
        · exact hcoarser l hl (by omega)
        · exact hgrid
      · refine hfound.imp_right (And.imp_left fun hj => ?_)
        push_cast
        omega

end Interval

/-! ## Seventeen digits -/

theorem tenTo_add (a b : Nat) : tenTo (a + b) = tenTo a * tenTo b := Nat.pow_add 10 a b

theorem lt_tenTo_digitCount (n : Nat) : n < tenTo (digitCount n) :=
  (Nat.length_toDigits_le_iff (by decide) Nat.length_toDigits_pos).1 (Nat.le_refl _)

theorem tenTo_digitCount_le {n : Nat} (h : 0 < n) : tenTo (digitCount n - 1) ≤ n := by
  rcases Nat.eq_zero_or_pos (digitCount n - 1) with hcount | hcount
  · rw [hcount]
    exact h
  · refine Nat.le_of_not_lt fun hlt => ?_
    have hle := (Nat.length_toDigits_le_iff (by decide) hcount).2 hlt
    rw [← digitCount] at hle
    omega

/-- The power of ten of the first digit is not above the datum. -/
theorem firstDigit_le {num den : Nat} (hnum : 0 < num) :
    den * tenTo (firstDigit num den).toNat ≤ num * tenTo (-firstDigit num den).toNat := by
  rw [firstDigit]
  split
  · assumption
  · have hcount : 0 < digitCount num := Nat.length_toDigits_pos
    generalize hup : ((digitCount num : Int) - digitCount den - 1).toNat = up
    generalize hdown : (-((digitCount num : Int) - digitCount den - 1)).toNat = down
    have hsum : digitCount den + up = digitCount num - 1 + down := by omega
    calc den * tenTo up ≤ tenTo (digitCount den) * tenTo up :=
          Nat.mul_le_mul_right _ (Nat.le_of_lt (lt_tenTo_digitCount den))
      _ = tenTo (digitCount num - 1) * tenTo down := by rw [← tenTo_add, hsum, tenTo_add]
      _ ≤ num * tenTo down := Nat.mul_le_mul_right _ (tenTo_digitCount_le hnum)

namespace Interval

variable {i : Interval} {k : Int}

/-- A grid that is finer than the interval is wide has a point in it. -/
theorem has_of_wide (hproper : i.Proper)
    (hwide : i.low * tenTo (-k).toNat + i.den * tenTo k.toNat < i.high * tenTo (-k).toNat) :
    i.has k (i.below k) ∨ i.has k (i.below k + 1) := by
  have hscale : 0 < tenTo (-k).toNat := tenTo_pos _
  obtain ⟨hfloor, hceil⟩ := between_neighbours hproper k
  have hlow : i.low * tenTo (-k).toNat < i.datum * tenTo (-k).toNat :=
    Nat.mul_lt_mul_of_pos_right hproper.low hscale
  have hhigh : i.datum * tenTo (-k).toNat < i.high * tenTo (-k).toNat :=
    Nat.mul_lt_mul_of_pos_right hproper.high hscale
  have hstep : (i.below k + 1) * tenTo k.toNat * i.den =
      i.below k * tenTo k.toNat * i.den + i.den * tenTo k.toNat := by ring
  simp only [has, within_iff]
  rcases Nat.lt_or_ge (i.low * tenTo (-k).toNat) (i.below k * tenTo k.toNat * i.den) with h | h
  · exact .inl ⟨.inl h, .inl (by omega)⟩
  · exact .inr ⟨.inl (by omega), .inl (by omega)⟩

/-- The interval of a datum with at most 53 binary digits is wider than the last of seventeen
decimal digits. -/
theorem ofDatum_wide (f : Format) {m : Nat} (hm : 0 < m) (hbound : m < twoTo 53) (e : Int) :
    let i := ofDatum f m e
    let k := firstDigit i.datum i.den - 17
    i.low * tenTo (-k).toNat + i.den * tenTo k.toNat < i.high * tenTo (-k).toNat := by
  intro i k
  have hunit : i.low + twoTo e.toNat < i.high := by
    have hpos := twoTo_pos e.toNat
    have hhigh : i.high = 4 * m * twoTo e.toNat + 2 * twoTo e.toNat := Nat.add_mul _ _ _
    have hlow : i.low ≤ 4 * m * twoTo e.toNat :=
      Nat.mul_le_mul_right _ (by split <;> omega)
    omega
  have hdatum : i.datum ≤ tenTo 17 * twoTo e.toNat := by
    have hbits : 4 * twoTo 53 ≤ tenTo 17 := by decide
    exact Nat.mul_le_mul_right _ (by omega)
  have hfirst : i.den * tenTo (k + 17).toNat ≤ i.datum * tenTo (-(k + 17)).toNat := by
    rw [show k + 17 = firstDigit i.datum i.den by omega]
    exact firstDigit_le (Nat.zero_lt_of_lt (ofDatum_proper f hm e).low)
  have hpowers : tenTo (k + 17).toNat * tenTo (-k).toNat =
      tenTo 17 * tenTo k.toNat * tenTo (-(k + 17)).toNat := by
    rw [← tenTo_add, ← tenTo_add, ← tenTo_add]
    congr 1
    omega
  have hstep : i.den * tenTo k.toNat ≤ twoTo e.toNat * tenTo (-k).toNat := by
    have hpos : 0 < tenTo 17 * tenTo (-(k + 17)).toNat := Nat.mul_pos (tenTo_pos _) (tenTo_pos _)
    refine Nat.le_of_mul_le_mul_right ?_ hpos
    calc i.den * tenTo k.toNat * (tenTo 17 * tenTo (-(k + 17)).toNat)
        = i.den * tenTo (k + 17).toNat * tenTo (-k).toNat := by
          rw [Nat.mul_assoc i.den (tenTo (k + 17).toNat), hpowers]
          ring
      _ ≤ i.datum * tenTo (-(k + 17)).toNat * tenTo (-k).toNat := Nat.mul_le_mul_right _ hfirst
      _ ≤ tenTo 17 * twoTo e.toNat * tenTo (-(k + 17)).toNat * tenTo (-k).toNat :=
          Nat.mul_le_mul_right _ (Nat.mul_le_mul_right _ hdatum)
      _ = twoTo e.toNat * tenTo (-k).toNat * (tenTo 17 * tenTo (-(k + 17)).toNat) := by ring
  calc i.low * tenTo (-k).toNat + i.den * tenTo k.toNat
      ≤ (i.low + twoTo e.toNat) * tenTo (-k).toNat := by
        rw [Nat.add_mul]
        exact Nat.add_le_add_left hstep _
    _ < i.high * tenTo (-k).toNat := Nat.mul_lt_mul_of_pos_right hunit (tenTo_pos _)

end Interval

/-- The decimal of a datum lies in its interval, no coarser grid has a point there, and of the
points of its own grid it is the nearest to the datum. -/
theorem shortest_coarsest (f : Format) (tie : Tie) {m : Nat} (hm : 0 < m) (hbound : m < twoTo 53)
    (e : Int) {n : Nat} {j : Int} (h : shortest f tie m e = (n, j)) :
    let i := Interval.ofDatum f m e
    i.has j n ∧ (∀ l, j < l → l ≤ firstDigit i.datum i.den → ∀ n, ¬ i.has l n) ∧
      ∀ other, i.has j other → i.Prefers tie j n other := by
  intro i
  have hproper : i.Proper := Interval.ofDatum_proper f hm e
  have hwide := Interval.has_of_wide hproper (Interval.ofDatum_wide f hm hbound e)
  obtain ⟨_, hcoarser, hfound⟩ := Interval.search_eq h
  have hgrid : i.onGrid? tie j = some n := by
    rcases hfound with hfound | ⟨rfl, hnone⟩
    · exact hfound
    · have hno := (Interval.onGrid?_eq_none_iff hproper).1 hnone
      exact absurd hwide (by simp only [not_or]; exact ⟨hno _, hno _⟩)
  exact ⟨Interval.onGrid?_eq_some hgrid,
    fun l hl hk => (Interval.onGrid?_eq_none_iff hproper).1 (hcoarser l hl hk),
    fun other hother => Interval.prefers_of_onGrid? hproper hgrid hother⟩

end ParamSql.Decimal
