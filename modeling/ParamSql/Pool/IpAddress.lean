import ParamSql.Decimal.Reader
import ParamSql.Text.Hexadecimal
import ParamSql.Text.Parts

/-!
# Network addresses

The written forms of an IP address. One of version 4 is four decimal bytes with points between them.
One of version 6 is eight groups of up to four hexadecimal digits with colons between them; two
colons in a row stand for the groups of zeros that are missing, at least one, and an address of
version 4 at the end stands for the last two groups.

Results:
* `isOctet_iff`: a decimal byte has one written form.
* `isV4_iff`: an address is written as four bytes with points between them.
-/

namespace ParamSql.Pool.IpAddress

open Text Decimal

/-! ## Version 4 -/

/-- Whether the text is a number below 256 without leading zeros. -/
def isOctet (cs : List Char) : Bool :=
  decide (ofDigits cs < 256 ∧ cs = Nat.toDigits 10 (ofDigits cs))

/-- Whether the text is an address of version 4. -/
def isV4 (cs : List Char) : Bool :=
  let octets := parts '.' cs
  octets.length = 4 && octets.all isOctet

theorem isOctet_iff (cs : List Char) : isOctet cs = true ↔ ∃ n < 256, cs = Nat.toDigits 10 n := by
  rw [isOctet, decide_eq_true_eq]
  constructor
  · exact fun h => ⟨_, h⟩
  · rintro ⟨n, hn, rfl⟩
    rw [ofDigits_toDigits]
    exact ⟨hn, rfl⟩

theorem notMem_of_isOctet {cs : List Char} (h : isOctet cs = true) : '.' ∉ cs := by
  obtain ⟨n, hn, rfl⟩ := (isOctet_iff cs).1 h
  revert n
  decide +kernel

/-- An address of version 4 is written as four bytes with points between them. -/
theorem isV4_iff (cs : List Char) :
    isV4 cs = true ↔ ∃ a b c d, cs = a ++ '.' :: (b ++ '.' :: (c ++ '.' :: d)) ∧
      ∀ octet ∈ [a, b, c, d], isOctet octet = true := by
  constructor
  · intro h
    simp only [isV4, Bool.and_eq_true, decide_eq_true_eq, List.all_eq_true] at h
    obtain ⟨hlength, hoctets⟩ := h
    have htext := intercalate_parts '.' cs
    obtain ⟨a, b, c, d, hparts⟩ : ∃ a b c d, parts '.' cs = [a, b, c, d] := by
      match hparts : parts '.' cs, hlength with
      | [a, b, c, d], _ => exact ⟨a, b, c, d, rfl⟩
    rw [hparts] at htext hoctets
    refine ⟨a, b, c, d, ?_, hoctets⟩
    rw [← htext]
    simp [List.intercalate]
  · rintro ⟨a, b, c, d, rfl, h⟩
    simp only [List.forall_mem_cons] at h
    obtain ⟨ha, hb, hc, hd, -⟩ := h
    simp [isV4, parts_append, parts_of_notMem, notMem_of_isOctet, ha, hb, hc, hd]

/-! ## Version 6 -/

/-- Whether the text is one group. -/
def isGroup (cs : List Char) : Bool :=
  !cs.isEmpty && cs.length ≤ 4 && cs.all fun c => (hexDigit? c).isSome

/-- The number of groups in a row, which may end with an address of version 4. -/
def countGroups? : List (List Char) → Option Nat
  | [] => some 0
  | part :: rest =>
    if isGroup part then (countGroups? rest).map (· + 1)
    else if rest.isEmpty && isV4 part then some 2
    else none

/-- The number of groups on one side of two colons; there may be none. -/
def countSide? (cs : List Char) : Option Nat :=
  if cs.isEmpty then some 0 else countGroups? (parts ':' cs)

/-- The text before the first two colons in a row and the text after them. -/
def splitGap? : List Char → Option (List Char × List Char)
  | [] => none
  | ':' :: ':' :: rest => some ([], rest)
  | c :: rest => (splitGap? rest).map fun (front, back) => (c :: front, back)

/-- Whether the text is an address of version 6. -/
def isV6 (cs : List Char) : Bool :=
  match splitGap? cs with
  | some (front, back) =>
    match countSide? front, countSide? back with
    | some n, some m => !front.contains '.' && n + m < 8
    | _, _ => false
  | none => countGroups? (parts ':' cs) = some 8

/-- Whether the text is an address of either version. -/
def isIpAddress (cs : List Char) : Bool := isV4 cs || isV6 cs

/-! ## Gaps and endings -/

example : isV6 "::".toList ∧ isV6 "1:2:3:4:5:6:7::".toList ∧
    isV6 "::ffff:10.0.0.1".toList := by
  decide +kernel

example : isV6 "1:2:3:4:5:6:7:8".toList ∧ !isV6 "1:2:3:4::5:6:7:8".toList ∧
    !isV6 "1::2::3".toList ∧ !isV6 "10.0.0.1::".toList := by
  decide +kernel

end ParamSql.Pool.IpAddress
