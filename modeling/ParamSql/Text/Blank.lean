/-!
# Blanks around a text

`isBlank` is the property White_Space and `trim` removes such characters from both ends.
-/

namespace ParamSql.Text

/-- The property White_Space. -/
def isBlank (c : Char) : Bool :=
  let n := c.toNat
  (9 ≤ n && n ≤ 13) || n = 0x20 || n = 0x85 || n = 0xA0 || n = 0x1680 ||
    (0x2000 ≤ n && n ≤ 0x200A) || n = 0x2028 || n = 0x2029 || n = 0x202F || n = 0x205F ||
    n = 0x3000

/-- Removes the blanks at both ends. -/
def trim (cs : List Char) : List Char :=
  ((cs.dropWhile isBlank).reverse.dropWhile isBlank).reverse

/-! ## The front of a text -/

section

variable {p : Char → Bool} {front cs : List Char}

theorem takeWhile_eq_nil (h : ∀ c ∈ cs.head?, p c = false) : cs.takeWhile p = [] := by
  cases cs with
  | nil => rfl
  | cons c cs => simp [h c (by simp)]

theorem dropWhile_eq_self (h : ∀ c ∈ cs.head?, p c = false) : cs.dropWhile p = cs := by
  cases cs with
  | nil => rfl
  | cons c cs => simp [h c (by simp)]

theorem takeWhile_front (hfront : ∀ c ∈ front, p c = true) (h : ∀ c ∈ cs.head?, p c = false) :
    (front ++ cs).takeWhile p = front := by
  rw [List.takeWhile_append_of_pos hfront, takeWhile_eq_nil h, List.append_nil]

theorem dropWhile_front (hfront : ∀ c ∈ front, p c = true) (h : ∀ c ∈ cs.head?, p c = false) :
    (front ++ cs).dropWhile p = cs := by
  rw [List.dropWhile_append_of_pos hfront, dropWhile_eq_self h]

end

end ParamSql.Text
