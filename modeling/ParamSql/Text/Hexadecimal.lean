/-!
# Hexadecimal digits

The codes of characters, the bytes of a URL and the groups of a network address are written in
hexadecimal digits, with letters of either case.

Results:
* `hexDigit?_digitChar`: each number below sixteen has a digit.
* `exists_of_mem_toDigits`: the digits of a number are digits.
-/

namespace ParamSql.Text

/-- The value of a hexadecimal digit. -/
def hexDigit? (c : Char) : Option Nat :=
  if c.isDigit then some (c.toNat - '0'.toNat)
  else if 'a' ≤ c ∧ c ≤ 'f' then some (c.toNat - 'a'.toNat + 10)
  else if 'A' ≤ c ∧ c ≤ 'F' then some (c.toNat - 'A'.toNat + 10)
  else none

theorem hexDigit?_digitChar : ∀ n < 16, hexDigit? n.digitChar = some n := by decide

theorem exists_of_mem_toDigits {base : Nat} (h1 : 1 < base) {n : Nat} {c : Char}
    (h : c ∈ Nat.toDigits base n) : ∃ m < base, c = m.digitChar := by
  induction n using Nat.strongRecOn with
  | ind n ih =>
    rw [Nat.toDigits_eq_if h1] at h
    split at h
    · rename_i hn
      exact ⟨n, hn, List.mem_singleton.1 h⟩
    · rename_i hn
      rcases List.mem_append.1 h with hfront | hlast
      · exact ih (n / base) (Nat.div_lt_self (by omega) h1) hfront
      · exact ⟨n % base, Nat.mod_lt n (by omega), List.mem_singleton.1 hlast⟩

end ParamSql.Text
