import ParamSql.Proofs.Decimal.Layout
import ParamSql.Proofs.Decimal.Rounding

/-!
# Floating-point texts are read back

The text of a datum is read as the datum, in every layout: it is a decimal of the datum's interval,
and what lies in the interval is rounded to the datum. No decimal with fewer digits would do, and no
datum needs more than seventeen.

Results:
* `Format.roundDecimal_eq_iff`: the decimals that are rounded to a datum.
* `Format.shortest_roundsBack`: the decimal that is written for a datum.
* `has_of_read?`: what is read is a datum of the format.
* `read?_text_iff`: the data of a format are those that are read from their own text.
-/

namespace ParamSql.Decimal

/-! ## Decimals of an interval -/

/-- The format is small enough for seventeen digits, and its data are so near to one that all
decimals around them are multiplied out. -/
structure Format.IsSmall (f : Format) : Prop where
  one_lt_precision : 1 < f.precision
  precision_le : f.precision ≤ 53
  least : -1100 ≤ f.minExponent
  greatest : f.maxExponent + f.precision ≤ 1100

theorem Format.isSmall_double : Format.double.IsSmall := by
  constructor <;> decide

theorem Format.isSmall_single : Format.single.IsSmall := by
  constructor <;> decide

/-- The first digit of a decimal counts one power of ten less than its point. -/
theorem digits_between {digits : Nat} (h : 0 < digits) (exponent : Int) :
    (10 : ℚ) ^ (digitCount digits + exponent - 1) ≤ digits * 10 ^ exponent ∧
      (digits : ℚ) * 10 ^ exponent < 10 ^ (digitCount digits + exponent) := by
  have hcount : 0 < digitCount digits := Nat.length_toDigits_pos
  have hlow : (10 : ℚ) ^ (digitCount digits - 1) ≤ digits := by
    exact_mod_cast tenTo_digitCount_le h
  have hhigh : (digits : ℚ) < 10 ^ digitCount digits := by
    exact_mod_cast lt_tenTo_digitCount digits
  constructor
  · calc (10 : ℚ) ^ (digitCount digits + exponent - 1)
        = 10 ^ (digitCount digits - 1) * 10 ^ exponent := by
          rw [← zpow_natCast, ← zpow_add₀ (by norm_num)]
          congr 1
          omega
      _ ≤ digits * 10 ^ exponent := by gcongr
  · calc (digits : ℚ) * 10 ^ exponent < 10 ^ digitCount digits * 10 ^ exponent := by gcongr
      _ = 10 ^ (digitCount digits + exponent) := by
        rw [← zpow_natCast, ← zpow_add₀ (by norm_num)]

namespace Format

variable {f : Format} {m : Nat} {e : Int}

/-- No value of the interval of a datum is out of the reach of its decimals. -/
theorem point_between (hf : f.IsSmall) (h : f.IsNormal m e) {digits : Nat} {exponent : Int}
    (hdigits : 0 < digits) (hin : (Interval.ofDatum f m e).Contains (digits * 10 ^ exponent)) :
    -400 ≤ digitCount digits + exponent ∧ digitCount digits + exponent ≤ 400 := by
  obtain ⟨⟨hlow, -⟩, hhigh, -⟩ := (contains_ofDatum_iff h.pos).1 hin
  have hhalf := sub_half_le_lowest f m e
  obtain ⟨habove, hbelow⟩ := digits_between hdigits exponent
  generalize (digits : ℚ) * 10 ^ exponent = x at *
  have hunit : (0 : ℚ) < 2 ^ e := by positivity
  have hm : (1 : ℚ) ≤ m := by exact_mod_cast h.pos
  have hfits : (m : ℚ) + 1 ≤ 2 ^ f.precision := by
    rw [← twoTo_cast]
    exact_mod_cast h.digits
  have hleast := hf.least.trans h.least
  have hgreatest := (Int.add_le_add_right h.greatest f.precision).trans hf.greatest
  have hpowers : (2 : ℚ) ^ (1101 : Int) ≤ 10 ^ (400 : Int) := by
    rw [zpow_ofNat, zpow_ofNat, ← twoTo_cast, ← tenTo_cast]
    exact Nat.cast_le.2 (by decide +kernel)
  have hfrom : (2 : ℚ) ^ (-1101 : Int) ≤ x := by
    have hunits : (1 : ℚ) / 2 * 2 ^ e ≤ x := (le_div_iff₀ hunit).1 (by linarith)
    calc (2 : ℚ) ^ (-1101 : Int) ≤ 2 ^ (e - 1) := zpow_le_zpow_right₀ (by norm_num) (by omega)
      _ = 2 ^ e * 2⁻¹ := zpow_sub_one₀ two_ne_zero e
      _ ≤ x := by linarith
  have hto : x < 2 ^ (1101 : Int) := by
    calc x < 2 ^ f.precision * 2 ^ e := (div_lt_iff₀ hunit).1 (by linarith)
      _ = 2 ^ (f.precision + e) := by rw [← zpow_natCast, ← zpow_add₀ two_ne_zero]
      _ ≤ 2 ^ (1101 : Int) := zpow_le_zpow_right₀ (by norm_num) (by omega)
  constructor
  · refine Int.le_of_not_gt fun hlt => lt_irrefl x ?_
    calc x < 10 ^ (digitCount digits + exponent) := hbelow
      _ ≤ 10 ^ (-400 : Int) := zpow_le_zpow_right₀ (by norm_num) (by omega)
      _ ≤ 2 ^ (-1101 : Int) := by
        rw [zpow_neg, zpow_neg]
        exact inv_anti₀ (by positivity) hpowers
      _ ≤ x := hfrom
  · refine Int.le_of_not_gt fun hgt => lt_irrefl x ?_
    calc x < 2 ^ (1101 : Int) := hto
      _ ≤ 10 ^ (400 : Int) := hpowers
      _ ≤ 10 ^ (digitCount digits + exponent - 1) :=
        zpow_le_zpow_right₀ (by norm_num) (by omega)
      _ ≤ x := habove

/-- Zero lies in the interval of no positive datum. -/
theorem digits_pos (h : f.IsNormal m e) {digits : Nat} {exponent : Int}
    (hin : (Interval.ofDatum f m e).Contains (digits * 10 ^ exponent)) : 0 < digits := by
  refine Nat.pos_of_ne_zero fun hzero => ?_
  have hlow := ((contains_ofDatum_iff h.pos).1 hin).1.1
  have hhalf := sub_half_le_lowest f m e
  have hm : (1 : ℚ) ≤ m := by exact_mod_cast h.pos
  rw [hzero, Nat.cast_zero, zero_mul, zero_div] at hlow
  linarith

/-- The decimals that are rounded to a datum are those of its interval. -/
theorem roundDecimal_eq_iff (hf : f.IsSmall) (h : f.IsNormal m e) (negative : Bool) (digits : Nat)
    (exponent : Int) : f.roundDecimal negative digits exponent = .finite negative m e ↔
      (Interval.ofDatum f m e).Contains (digits * 10 ^ exponent) := by
  have hvalue : ((digits * tenTo exponent.toNat : Nat) : ℚ) / tenTo (-exponent).toNat =
      digits * 10 ^ exponent := by
    rw [← pow_toNat_div]
    push_cast [tenTo_cast]
    rw [mul_div_assoc]
  have hround := round_eq_iff hf.one_lt_precision h negative (digits * tenTo exponent.toNat)
    (tenTo_pos (-exponent).toNat)
  rw [hvalue] at hround
  constructor
  · intro hdatum
    simp only [roundDecimal] at hdatum
    split at hdatum
    · cases hdatum
      exact absurd h.pos (Nat.lt_irrefl 0)
    · split at hdatum
      · cases hdatum
      · exact hround.1 hdatum
  · intro hin
    have hdigits := digits_pos h hin
    obtain ⟨hsmall, hlarge⟩ := point_between hf h hdigits hin
    rw [digitCount] at hsmall hlarge
    rw [roundDecimal, if_neg (by omega), if_neg (by omega)]
    exact hround.2 hin

/-- The decimal that is written for a datum is rounded to the datum. No decimal with fewer digits
is, and of those with as many it is the nearest to the datum. -/
theorem shortest_roundsBack (hf : f.IsSmall) (h : f.IsNormal m e) (negative : Bool) (tie : Tie)
    {n : Nat} {j : Int} (hdecimal : shortest f tie m e = (n, j)) :
    let i := Interval.ofDatum f m e
    f.roundDecimal negative n j = .finite negative m e ∧
      (∀ l, j < l → l ≤ firstDigit i.datum i.den →
        ∀ n, f.roundDecimal negative n l ≠ .finite negative m e) ∧
      ∀ other, f.roundDecimal negative other j = .finite negative m e →
        i.Prefers tie j n other := by
  intro i
  have hbound : m < twoTo 53 :=
    h.digits.trans_le (Nat.pow_le_pow_right (by decide) hf.precision_le)
  have hrounds (n : Nat) (l : Int) :
      f.roundDecimal negative n l = .finite negative m e ↔ i.has l n := by
    rw [roundDecimal_eq_iff hf h, Interval.has_iff_contains]
  simp only [ne_eq, hrounds]
  exact shortest_coarsest f tie h.pos hbound e hdecimal

/-- What a decimal is rounded to is always a datum of the format. -/
theorem has_roundDecimal (hprecision : 0 < f.precision) (negative : Bool) (digits : Nat)
    (exponent : Int) : f.Has (f.roundDecimal negative digits exponent) := by
  simp only [roundDecimal]
  split
  · exact .zero negative
  · split
    · exact .infinite negative
    · exact has_round hprecision negative _ (tenTo_pos _)

end Format

/-! ## Texts -/

/-- What is read as a decimal does not begin like a sign or a word. -/
theorem head_of_readUnsigned? {negative : Bool} {cs : List Char} {w : Written}
    (h : readUnsigned? negative cs = some w) :
    ∃ c rest, cs = c :: rest ∧ (c.isDigit = true ∨ c = '.') := by
  cases cs with
  | nil => cases h
  | cons c rest =>
    refine ⟨c, rest, rfl, ?_⟩
    by_cases hdigit : c.isDigit = true
    · exact .inl hdigit
    · by_cases hpoint : c = '.'
      · exact .inr hpoint
      · rw [readUnsigned?, List.takeWhile_cons_of_neg hdigit, List.dropWhile_cons_of_neg hdigit,
          readFraction] at h
        · cases h
        · rintro _ ⟨⟩
          exact hpoint rfl

theorem isAlpha_toLower {c : Char} (h : c.isDigit = true ∨ c = '.') :
    c.toLower.isAlpha = false := by
  rcases h with h | rfl
  · have hbelow (d : Char) (hd : '9'.toNat < d.toNat) : ¬ d.val ≤ c.val := fun hle =>
      Nat.not_le.2 hd ((UInt32.le_iff_toNat_le.1 hle).trans (Char.isDigit_iff_toNat.1 h).2)
    have hupper := hbelow 'A' (by decide)
    have hlower := hbelow 'a' (by decide)
    have hsame : c.toLower = c := dif_neg fun hc => hupper hc.1
    have hranges : c.isAlpha = (decide ('A'.val ≤ c.val ∧ c.val ≤ 'Z'.val) ||
        decide ('a'.val ≤ c.val) && decide (c.val ≤ 'z'.val)) := rfl
    rw [hsame, hranges, decide_eq_false fun hc => hupper hc.1, decide_eq_false hlower]
    rfl
  · decide

/-- A decimal with a sign in front or without one is read as its nearest datum. -/
theorem read?_unsigned (f : Format) {negative : Bool} {cs : List Char} {w : Written}
    (h : readUnsigned? negative cs = some w) :
    read? f (String.ofList (if negative then '-' :: cs else cs)) = some (w.nearest f) := by
  obtain ⟨c, rest, rfl, hc⟩ := head_of_readUnsigned? h
  have hsign : readSign (if negative then '-' :: c :: rest else c :: rest) =
      (negative, c :: rest) := by
    cases negative with
    | true => rfl
    | false =>
      rw [if_neg Bool.false_ne_true, readSign.eq_def]
      split
      · rename_i hminus
        obtain ⟨rfl, -⟩ := List.cons.inj hminus
        exact absurd hc (by decide)
      · rename_i hplus
        obtain ⟨rfl, -⟩ := List.cons.inj hplus
        exact absurd hc (by decide)
      · rfl
  have hword {word : String} {d : Char} (hd : word.toList.head? = some d)
      (halpha : d.isAlpha = true) : String.ofList ((c :: rest).map Char.toLower) ≠ word := by
    rintro rfl
    rw [String.toList_ofList, List.map_cons, List.head?_cons, Option.some.injEq] at hd
    rw [← hd, isAlpha_toLower hc] at halpha
    contradiction
  rw [read?, String.toList_ofList, hsign]
  dsimp only
  rw [if_neg (not_or.2 ⟨hword (d := 'i') (by simp) rfl, hword (d := 'i') (by simp) rfl⟩),
    if_neg (hword (d := 'n') (by simp) rfl), h, Option.map_some]

/-- The text of a datum of a small format is read as the datum, whatever the layout. -/
theorem read?_text (l : Layout) {f : Format} (hf : f.IsSmall) {x : Binary} (hx : f.Has x) :
    read? f (l.text f x) = some x := by
  cases hx with
  | nan => simp [Layout.text, read?, readSign]
  | infinite negative => cases negative <;> simp [Layout.text, read?, readSign]
  | zero negative => exact read?_unsigned f (w := ⟨negative, ['0'], ['0'], 0⟩) rfl
  | @normal negative m e h =>
    obtain ⟨⟨significand, exponent⟩, hdecimal⟩ : ∃ decimal, shortest f l.tie m e = decimal :=
      ⟨_, rfl⟩
    have hround := (Format.shortest_roundsBack hf h negative l.tie hdecimal).1
    have hin := (Format.roundDecimal_eq_iff hf h negative significand exponent).1 hround
    obtain ⟨w, hread, hnegative, hvalue⟩ :=
      Layout.readUnsigned?_digits l negative (Format.digits_pos h hin) exponent
    have hnearest : w.nearest f = .finite negative m e := by
      rw [← hvalue, Written.value] at hin
      rw [Written.nearest, hnegative]
      exact (Format.roundDecimal_eq_iff hf h negative _ _).2 hin
    rw [Layout.text, if_neg h.pos.ne', hdecimal, read?_unsigned f hread, hnearest]

/-- Reading gives data of the format only. -/
theorem has_of_read? {f : Format} (hprecision : 0 < f.precision) {s : String} {x : Binary}
    (h : read? f s = some x) : f.Has x := by
  simp only [read?] at h
  split at h
  · cases h
    exact .infinite _
  · split at h
    · cases h
      exact .nan
    · obtain ⟨w, -, rfl⟩ := Option.map_eq_some_iff.1 h
      exact Format.has_roundDecimal hprecision _ _ _

/-- The data of a small format are those that are read from their own text, whatever the layout. -/
theorem read?_text_iff (l : Layout) {f : Format} (hf : f.IsSmall) (x : Binary) :
    read? f (l.text f x) = some x ↔ f.Has x :=
  ⟨has_of_read? (Nat.zero_lt_of_lt hf.one_lt_precision), read?_text l hf⟩

end ParamSql.Decimal
