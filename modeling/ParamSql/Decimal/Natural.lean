import ParamSql.Decimal.Reader

/-!
# Whole numbers in settings

A setting that is a whole number is written in decimal digits of ASCII, with leading zeros and one
plus sign if wanted, and nothing else.

Results:
* `natural?_eq_some_iff`: the texts of a number.
-/

namespace ParamSql.Decimal

/-- The text without one leading plus sign. -/
def dropPlus : List Char → List Char
  | '+' :: rest => rest
  | cs => cs

/-- Reads a whole number below `bound`. -/
def natural? (bound : Nat) (cs : List Char) : Option Nat :=
  let digits := dropPlus cs
  if !digits.isEmpty && digits.all Char.isDigit && ofDigits digits < bound then
    some (ofDigits digits)
  else none

/-- A number below the bound is written as digits, behind a plus sign or not. -/
theorem natural?_eq_some_iff {bound n : Nat} {cs : List Char} :
    natural? bound cs = some n ↔ ∃ digits, (cs = digits ∨ cs = '+' :: digits) ∧ digits ≠ [] ∧
      (∀ c ∈ digits, c.isDigit = true) ∧ ofDigits digits = n ∧ n < bound := by
  have hread (digits : List Char) (h : dropPlus cs = digits) : natural? bound cs = some n ↔
      digits ≠ [] ∧ (∀ c ∈ digits, c.isDigit = true) ∧ ofDigits digits = n ∧ n < bound := by
    rw [natural?, h]
    simp only [Bool.and_eq_true, Bool.not_eq_true', List.isEmpty_eq_false_iff, List.all_eq_true,
      decide_eq_true_eq, Option.ite_none_right_eq_some, Option.some.injEq]
    constructor
    · rintro ⟨⟨⟨hne, hdigits⟩, hbound⟩, rfl⟩
      exact ⟨hne, hdigits, rfl, hbound⟩
    · rintro ⟨hne, hdigits, rfl, hbound⟩
      exact ⟨⟨⟨hne, hdigits⟩, hbound⟩, rfl⟩
  constructor
  · intro h
    refine ⟨dropPlus cs, ?_, (hread _ rfl).1 h⟩
    unfold dropPlus
    split
    · exact .inr rfl
    · exact .inl rfl
  · rintro ⟨digits, rfl | rfl, h⟩
    · refine (hread cs ?_).2 h
      unfold dropPlus
      split
      · exact absurd (h.2.1 '+' List.mem_cons_self) (by decide)
      · rfl
    · exact (hread digits rfl).2 h

/-- Whether the text is a whole number with or without a sign, of at most 64 bits with the sign. -/
def isInteger (cs : List Char) : Bool :=
  match cs with
  | '-' :: digits =>
    !digits.isEmpty && digits.all Char.isDigit && ofDigits digits ≤ twoTo 63
  | cs => (natural? (twoTo 63) cs).isSome

end ParamSql.Decimal
