import Mathlib.Algebra.Field.Rat
import Mathlib.Data.List.TakeWhile
import Mathlib.Tactic.Ring
import ParamSql.Decimal.Layout
import ParamSql.Decimal.Reader
import ParamSql.Text.Blank

/-!
# The text of a decimal stands for it

Wherever a layout puts the point, and whether it writes an exponent or not, the text is read as a
decimal of the same value: no digit is lost, and only zeros that do not count are added.

Results:
* `exists_kept`: digits without the zeros at their end.
* `readUnsigned?_positional`, `readUnsigned?_scientific`: the two ways of writing a decimal.
* `readUnsigned?_digits`: every layout, significand and exponent.
-/

namespace ParamSql.Decimal

open Text

/-! ## Values of digits -/

theorem ofDigits_append (front back : List Char) :
    ofDigits (front ++ back) = 10 ^ back.length * ofDigits front + ofDigits back := by
  rw [ofDigits, Nat.ofDigitChars_append, Nat.ofDigitChars_eq_ofDigitChars_zero]
  rfl

theorem ofDigits_zeros (n : Nat) : ofDigits (List.replicate n '0') = 0 := by
  simp [ofDigits]

/-- Zeros in front do not count. -/
theorem ofDigits_zeros_append (n : Nat) (cs : List Char) :
    ofDigits (List.replicate n '0' ++ cs) = ofDigits cs := by
  rw [ofDigits_append, ofDigits_zeros, Nat.mul_zero, Nat.zero_add]

/-- Each zero behind counts ten times. -/
theorem ofDigits_append_zeros (n : Nat) (cs : List Char) :
    ofDigits (cs ++ List.replicate n '0') = 10 ^ n * ofDigits cs := by
  rw [ofDigits_append, ofDigits_zeros, Nat.add_zero, List.length_replicate]

/-- The value of a written decimal without its sign. -/
def Written.value (w : Written) : ℚ :=
  ofDigits (w.whole ++ w.fraction) * 10 ^ (w.exponent - w.fraction.length)

/-- Digits are those that count and zeros behind them. -/
theorem exists_kept (digits : List Char) :
    ∃ zeros, digits = (digits.reverse.dropWhile (· = '0')).reverse ++ List.replicate zeros '0' := by
  refine ⟨(digits.reverse.takeWhile (· = '0')).length, ?_⟩
  have hzeros : (digits.reverse.takeWhile (· = '0')).reverse =
      List.replicate (digits.reverse.takeWhile (· = '0')).length '0' := by
    rw [List.eq_replicate_iff, List.length_reverse]
    refine ⟨rfl, fun c hc => ?_⟩
    simpa using List.mem_takeWhile_imp (List.mem_reverse.1 hc)
  rw [← hzeros, ← List.reverse_append, List.takeWhile_append_dropWhile, List.reverse_reverse]

/-! ## Reading -/

/-- The text is read as a decimal with the sign and the value. -/
def ReadsAs (negative : Bool) (cs : List Char) (value : ℚ) : Prop :=
  ∃ w, readUnsigned? negative cs = some w ∧ w.negative = negative ∧ w.value = value

/-- Digits with a point between them, and an exponent behind them. -/
theorem readUnsigned?_point {whole fraction rest : List Char} {exponent : Int} (negative : Bool)
    (hne : whole ≠ []) (hwhole : ∀ c ∈ whole, c.isDigit = true)
    (hfraction : ∀ c ∈ fraction, c.isDigit = true) (hrest : ∀ c ∈ rest.head?, c.isDigit = false)
    (hexponent : readExponent? rest = some exponent) :
    readUnsigned? negative (whole ++ '.' :: (fraction ++ rest)) =
      some ⟨negative, whole, fraction, exponent⟩ := by
  have hpoint : ∀ c ∈ ('.' :: (fraction ++ rest)).head?, c.isDigit = false := by
    rintro c ⟨⟩
    decide
  simp only [readUnsigned?, takeWhile_front hwhole hpoint, dropWhile_front hwhole hpoint,
    readFraction, takeWhile_front hfraction hrest, dropWhile_front hfraction hrest, hexponent,
    List.isEmpty_iff, hne, false_and, if_false, Option.map_some]

/-- Digits without a point, and an exponent behind them. -/
theorem readUnsigned?_whole {whole rest : List Char} {exponent : Int} (negative : Bool)
    (hne : whole ≠ []) (hwhole : ∀ c ∈ whole, c.isDigit = true)
    (hrest : ∀ c ∈ rest.head?, c.isDigit = false ∧ c ≠ '.')
    (hexponent : readExponent? rest = some exponent) :
    readUnsigned? negative (whole ++ rest) = some ⟨negative, whole, [], exponent⟩ := by
  have hdigit : ∀ c ∈ rest.head?, c.isDigit = false := fun c hc => (hrest c hc).1
  have hfraction : readFraction rest = ([], rest) := by
    unfold readFraction
    split
    · exact ((hrest '.' rfl).2 rfl).elim
    · rfl
  simp only [readUnsigned?, takeWhile_front hwhole hdigit, dropWhile_front hwhole hdigit,
    hfraction, hexponent, List.isEmpty_iff, hne, false_and, if_false, Option.map_some]

theorem readsAs_point (negative : Bool) (whole fraction : List Char) (hne : whole ≠ [])
    (hwhole : ∀ c ∈ whole, c.isDigit = true) (hfraction : ∀ c ∈ fraction, c.isDigit = true) :
    ReadsAs negative (whole ++ '.' :: fraction)
      (ofDigits (whole ++ fraction) * 10 ^ (0 - (fraction.length : Int))) := by
  have hend : ∀ c ∈ ([] : List Char).head?, c.isDigit = false := by simp
  have hread := readUnsigned?_point negative hne hwhole hfraction hend rfl
  rw [List.append_nil] at hread
  exact ⟨_, hread, rfl, rfl⟩

namespace Layout

theorem readSign_toDigits (n : Nat) :
    readSign (Nat.toDigits 10 n) = (false, Nat.toDigits 10 n) := by
  obtain ⟨d, ds, hds, hd⟩ := toDigits_cons n
  rw [hds, readSign.eq_def]
  split
  · rename_i hminus
    exact absurd ((List.cons.inj hminus).1 ▸ hd) (by decide)
  · rename_i hplus
    exact absurd ((List.cons.inj hplus).1 ▸ hd) (by decide)
  · rfl

/-- An exponent is read back. -/
theorem readExponent?_exponent (l : Layout) (k : Int) : readExponent? (l.exponent k) = some k := by
  have hsign : readSign ((if k < 0 then ['-'] else if l.plus then ['+'] else []) ++
      Nat.toDigits 10 k.natAbs) = (decide (k < 0), Nat.toDigits 10 k.natAbs) := by
    by_cases hk : k < 0
    · simp [hk, readSign]
    · cases hplus : l.plus with
      | true => simp [hk, readSign]
      | false => simp [hk, readSign_toDigits]
  have hdigits : (Nat.toDigits 10 k.natAbs).all Char.isDigit = true :=
    List.all_eq_true.2 fun c hc => Nat.isDigit_of_mem_toDigits (by decide) (by decide) hc
  have hne : (!(Nat.toDigits 10 k.natAbs).isEmpty) = true := by
    simp [Nat.toDigits_ne_nil]
  simp only [exponent, readExponent?, hsign, hdigits, hne, ofDigits_toDigits, true_or, and_self,
    if_true, decide_eq_true_eq]
  split <;> (congr 1; omega)

section

variable {kept : List Char} (hne : kept ≠ []) (hkept : ∀ c ∈ kept, c.isDigit = true)

include hne hkept

theorem readUnsigned?_positional (negative : Bool) (k : Int) :
    ReadsAs negative (positional kept k) (ofDigits kept * 10 ^ (k + 1 - kept.length)) := by
  have hzeros : ∀ n, ∀ c ∈ List.replicate n '0', c.isDigit = true := by
    intro n c hc
    rw [List.eq_of_mem_replicate hc]
    rfl
  rw [positional]
  split
  · rename_i hk
    have hread := readsAs_point negative ['0'] (List.replicate (-k - 1).toNat '0' ++ kept)
      (List.cons_ne_nil '0' []) (by simp) (List.forall_mem_append.2 ⟨hzeros _, hkept⟩)
    have hdigits : ofDigits (['0'] ++ (List.replicate (-k - 1).toNat '0' ++ kept)) =
        ofDigits kept :=
      ofDigits_zeros_append ((-k - 1).toNat + 1) kept
    have hpower : 0 - ((List.replicate (-k - 1).toNat '0' ++ kept).length : Int) =
        k + 1 - kept.length := by
      rw [List.length_append, List.length_replicate]
      omega
    rwa [hdigits, hpower] at hread
  · rename_i hk
    by_cases hlength : kept.length ≤ k.toNat + 1
    · have hread := readsAs_point negative
        (kept ++ List.replicate (k.toNat + 1 - kept.length) '0') ['0'] (by simp [hne])
        (List.forall_mem_append.2 ⟨hkept, hzeros _⟩) (by simp)
      have hdigits : ofDigits (kept ++ List.replicate (k.toNat + 1 - kept.length) '0' ++ ['0']) =
          10 ^ (k.toNat + 1 - kept.length + 1) * ofDigits kept := by
        rw [List.append_assoc, ← List.replicate_succ', ofDigits_append_zeros]
      have hvalue : (ofDigits (kept ++ List.replicate (k.toNat + 1 - kept.length) '0' ++ ['0']) :
          ℚ) * 10 ^ (0 - (['0'].length : Int)) = ofDigits kept * 10 ^ (k + 1 - kept.length) := by
        have hpower : k + 1 - kept.length = (k.toNat + 1 - kept.length : Nat) := by omega
        have htenth : (10 : ℚ) ^ (0 - (['0'].length : Int)) = 10⁻¹ := by simp
        rw [hdigits, hpower, htenth, zpow_natCast]
        push_cast
        ring
      rw [hvalue] at hread
      simpa only [List.take_of_length_le hlength, List.drop_of_length_le hlength,
        List.isEmpty_nil, if_true] using hread
    · have hread := readsAs_point negative (kept.take (k.toNat + 1)) (kept.drop (k.toNat + 1))
        (by simp [hne]) (fun c hc => hkept c (List.mem_of_mem_take hc))
        (fun c hc => hkept c (List.mem_of_mem_drop hc))
      have hfraction : (kept.drop (k.toNat + 1)).isEmpty = false := by
        rw [List.isEmpty_eq_false_iff, ne_eq, List.drop_eq_nil_iff]
        exact hlength
      have hnone : k.toNat + 1 - kept.length = 0 := by omega
      have hpower : 0 - ((kept.drop (k.toNat + 1)).length : Int) = k + 1 - kept.length := by
        rw [List.length_drop]
        omega
      rw [List.take_append_drop, hpower] at hread
      simpa only [hnone, List.replicate_zero, List.append_nil, hfraction, Bool.false_eq_true,
        if_false] using hread

theorem readUnsigned?_scientific (l : Layout) (negative : Bool) (k : Int) :
    ReadsAs negative (l.scientific kept k) (ofDigits kept * 10 ^ (k + 1 - kept.length)) := by
  obtain ⟨d, rest, rfl⟩ := List.exists_cons_of_ne_nil hne
  obtain ⟨hd, hrest⟩ := List.forall_mem_cons.1 hkept
  have hexponent := readExponent?_exponent l k
  cases rest with
  | nil =>
    have hread := readUnsigned?_whole negative (List.cons_ne_nil d []) (by simpa using hd)
      (by rintro c ⟨⟩; decide) hexponent
    refine ⟨_, hread, rfl, ?_⟩
    simp [Written.value]
  | cons e rest =>
    have hread := readUnsigned?_point negative (List.cons_ne_nil d []) (by simpa using hd) hrest
      (by rintro c ⟨⟩; decide) hexponent
    refine ⟨_, hread, rfl, ?_⟩
    simp [Written.value]

end

/-- The text of a decimal is read as a decimal of the same value. -/
theorem readUnsigned?_digits (l : Layout) (negative : Bool) {significand : Nat}
    (h : 0 < significand) (exponent : Int) :
    ReadsAs negative (l.digits significand exponent) (significand * 10 ^ exponent) := by
  obtain ⟨zeros, hzeros⟩ := exists_kept (Nat.toDigits 10 significand)
  rw [digits]
  generalize ((Nat.toDigits 10 significand).reverse.dropWhile (· = '0')).reverse = kept at hzeros ⊢
  have hvalue : significand = 10 ^ zeros * ofDigits kept := by
    rw [← ofDigits_append_zeros, ← hzeros, ofDigits_toDigits]
  have hne : kept ≠ [] := by
    rintro rfl
    rw [hvalue] at h
    exact absurd h (Nat.lt_irrefl 0)
  have hkept : ∀ c ∈ kept, c.isDigit = true := by
    intro c hc
    have hmem : c ∈ Nat.toDigits 10 significand := hzeros ▸ List.mem_append_left _ hc
    exact Nat.isDigit_of_mem_toDigits (by decide) (by decide) hmem
  have hsame : (significand : ℚ) * 10 ^ exponent = ofDigits kept *
      10 ^ (exponent + (Nat.toDigits 10 significand).length - 1 + 1 - kept.length) := by
    have hlength : (Nat.toDigits 10 significand).length = kept.length + zeros := by
      rw [hzeros, List.length_append, List.length_replicate]
    have hpower : exponent + (Nat.toDigits 10 significand).length - 1 + 1 - kept.length =
        zeros + exponent := by
      omega
    rw [hpower, zpow_add₀ (by norm_num), zpow_natCast, hvalue]
    push_cast
    ring
  rw [hsame]
  split
  · exact readUnsigned?_positional hne hkept negative _
  · exact readUnsigned?_scientific hne hkept l negative _

end Layout

end ParamSql.Decimal
