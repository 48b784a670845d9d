import Mathlib.Data.List.Infix
import Mathlib.Data.List.TakeWhile
import ParamSql.Json.Reader
import ParamSql.Text.Blank

/-!
# Documents that are written are read back

A `Document` is a JSON document that has a text: its strings are texts, and its numbers are whole
and have 64 bits. It is written without blanks, in one way, and reading gives it back, whatever its
size and however its parts are nested.

Results:
* `read?_eq_some_iff`: nothing but blanks follows a document.
* `readString?_write`: the characters of a string.
* `readNumber?_write`: the digits of a number.
* `readItems?_write`, `readFields?_write`: items and fields, if each of them is read back.
* `read?_write`: every document.
-/

namespace ParamSql.Json

open Decimal Text

/-- What is read at the front of the text is all of it but for blanks. -/
theorem read?_eq_some_iff {s : String} {json : Json} :
    read? s = some json ↔
      ∃ rest, readValue? (2 * s.toList.length + 2) s.toList = some (json, rest) ∧
        ∀ c ∈ rest, isSpace c = true := by
  rw [read?]
  cases readValue? (2 * s.toList.length + 2) s.toList with
  | none => simp
  | some read =>
    obtain ⟨found, rest⟩ := read
    simp only [Option.ite_none_right_eq_some, Option.some.injEq, Prod.mk.injEq, List.isEmpty_iff,
      skip, List.dropWhile_eq_nil_iff]
    constructor
    · rintro ⟨hrest, rfl⟩
      exact ⟨rest, ⟨rfl, rfl⟩, hrest⟩
    · rintro ⟨_, ⟨rfl, rfl⟩, hrest⟩
      exact ⟨hrest, rfl⟩

/-- A document that has a text. -/
inductive Document where
  | null
  | bool (b : Bool)
  | number (n : Int) (low : -(twoTo 63 : Int) ≤ n) (high : n < twoTo 64)
  | string (s : String)
  | array (items : List Document)
  | object (fields : List (String × Document))

namespace Document

mutual

/-- The document as it is read. -/
def json : Document → Json
  | .null => .null
  | .bool b => .bool b
  | .number n _ _ => .number (some (.whole n))
  | .string s => .string (some s)
  | .array items => .array (jsonItems items)
  | .object fields => .object (jsonFields fields)

/-- The items of an array as they are read. -/
def jsonItems : List Document → List Json
  | [] => []
  | item :: rest => json item :: jsonItems rest

/-- The fields of an object as they are read. -/
def jsonFields : List (String × Document) → List (Option String × Json)
  | [] => []
  | (key, value) :: rest => (some key, json value) :: jsonFields rest

end

/-! ## Writing -/

/-- A character in a string. A control has no letter of its own here. -/
def writeChar (c : Char) : List Char :=
  if c = '"' ∨ c = '\\' then ['\\', c]
  else if c.toNat < 0x20 then
    ['\\', 'u', '0', '0', (c.toNat / 16).digitChar, (c.toNat % 16).digitChar]
  else [c]

/-- A text as a string. -/
def writeText (s : String) : List Char := '"' :: (s.toList.flatMap writeChar ++ ['"'])

/-- A whole number. -/
def writeNumber (n : Int) : List Char :=
  if n < 0 then '-' :: Nat.toDigits 10 n.natAbs else Nat.toDigits 10 n.natAbs

mutual

/-- The text of a document. -/
def write : Document → List Char
  | .null => ['n', 'u', 'l', 'l']
  | .bool true => ['t', 'r', 'u', 'e']
  | .bool false => ['f', 'a', 'l', 's', 'e']
  | .number n _ _ => writeNumber n
  | .string s => writeText s
  | .array [] => ['[', ']']
  | .array (item :: rest) => '[' :: (write item ++ writeItems rest)
  | .object [] => ['\x7b', '\x7d']
  | .object ((key, value) :: rest) =>
    '\x7b' :: (writeText key ++ ':' :: (write value ++ writeFields rest))

/-- The items of an array behind its first one, and its closing bracket. -/
def writeItems : List Document → List Char
  | [] => [']']
  | item :: rest => ',' :: (write item ++ writeItems rest)

/-- The fields of an object behind its first one, and its closing brace. -/
def writeFields : List (String × Document) → List Char
  | [] => ['\x7d']
  | (key, value) :: rest => ',' :: (writeText key ++ ':' :: (write value ++ writeFields rest))

end

/-! ## Strings -/

/-- The code of a control is read back. -/
theorem readUnit?_control {n : Nat} (h : n < 0x20) (rest : List Char) :
    readUnit? ('0' :: '0' :: (n / 16).digitChar :: (n % 16).digitChar :: rest) =
      some (n, rest) := by
  have hzero : hexDigit? '0' = some 0 := by decide
  rw [readUnit?, hzero, hexDigit?_digitChar (n / 16) (by omega),
    hexDigit?_digitChar (n % 16) (by omega)]
  simp only [Option.bind_eq_bind, Option.bind_some, Option.some.injEq, Prod.mk.injEq, and_true]
  omega

/-- One character is one unit, whatever stands behind it. -/
theorem readUnits?_writeChar (c : Char) (fuel : Nat) (rest : List Char) :
    readUnits? (fuel + 1) (writeChar c ++ rest) =
      (readUnits? fuel rest).map fun (units, rest) => (c.toNat :: units, rest) := by
  rw [writeChar]
  split
  · rename_i h
    rcases h with rfl | rfl <;>
      cases hrest : readUnits? fuel rest <;> simp [readUnits?, escaped?, hrest]
  · rename_i h
    rw [not_or] at h
    split
    · rename_i hcontrol
      have hunit := readUnit?_control hcontrol rest
      cases hrest : readUnits? fuel rest <;> simp [readUnits?, hunit, hrest]
    · rename_i hcontrol
      cases hrest : readUnits? fuel rest <;> simp [readUnits?, h, hcontrol, hrest]

theorem readUnits?_write {cs : List Char} {fuel : Nat} (h : cs.length < fuel) (rest : List Char) :
    readUnits? fuel (cs.flatMap writeChar ++ '"' :: rest) = some (cs.map Char.toNat, rest) := by
  induction cs generalizing fuel with
  | nil =>
    obtain ⟨fuel, rfl⟩ := Nat.exists_eq_add_of_lt h
    simp [readUnits?]
  | cons c cs ih =>
    obtain ⟨fuel, rfl⟩ := Nat.exists_eq_add_of_lt h
    rw [List.flatMap_cons, List.append_assoc, readUnits?_writeChar, ih (by simp; omega)]
    rfl

/-- No character is half of a surrogate pair. -/
theorem ofUnits?_toNat (cs : List Char) : ofUnits? (cs.map Char.toNat) = some cs := by
  induction cs with
  | nil => rfl
  | cons c cs ih =>
    have hvalid : c.toNat < 0xD800 ∨ 0xDFFF < c.toNat ∧ c.toNat < 0x110000 := c.valid
    have hhigh : ¬ (0xD800 ≤ c.toNat ∧ c.toNat < 0xDC00) := by omega
    have hlow : ¬ (0xDC00 ≤ c.toNat ∧ c.toNat < 0xE000) := by omega
    rw [List.map_cons, ofUnits?.eq_def]
    simp only [if_neg hhigh, if_neg hlow, ih, Char.ofNat_toNat, Option.map_some]

theorem writeChar_ne_nil (c : Char) : writeChar c ≠ [] := by
  unfold writeChar
  split
  · simp
  · split <;> simp

theorem length_le_writeChars (cs : List Char) : cs.length ≤ (cs.flatMap writeChar).length := by
  induction cs with
  | nil => exact Nat.le_refl _
  | cons c cs ih =>
    have hchar := List.length_pos_iff.2 (writeChar_ne_nil c)
    rw [List.flatMap_cons, List.length_append, List.length_cons]
    omega

theorem readString?_write (s : String) (rest : List Char) :
    readString? (s.toList.flatMap writeChar ++ '"' :: rest) = some (some s, rest) := by
  have hfuel : s.toList.length < (s.toList.flatMap writeChar ++ '"' :: rest).length + 1 := by
    have hlength := length_le_writeChars s.toList
    rw [List.length_append]
    omega
  rw [readString?, readUnits?_write hfuel]
  simp only [Option.map_some, ofUnits?_toNat, String.ofList_toList]

/-! ## Numbers -/

/-- What follows does not go on with a number. -/
def Ends (rest : List Char) : Prop :=
  ∀ c ∈ rest.head?, c.isDigit = false ∧ c ≠ '.' ∧ c ≠ 'e' ∧ c ≠ 'E'

theorem head?_toDigits {n : Nat} (h : 0 < n) : (Nat.toDigits 10 n).head? ≠ some '0' := by
  induction n using Nat.strongRecOn with
  | ind n ih =>
    rw [Nat.toDigits_eq_if (by decide)]
    split
    · rw [List.head?_cons, ne_eq, Option.some.injEq, Nat.digitChar_eq_zero]
      omega
    · have hfront := ih (n / 10) (by omega) (by omega)
      rwa [List.head?_append_of_ne_nil _ Nat.toDigits_ne_nil]

section

variable {rest : List Char} (h : Ends rest)

include h

theorem takeWhile_toDigits (n : Nat) :
    (Nat.toDigits 10 n ++ rest).takeWhile Char.isDigit = Nat.toDigits 10 n :=
  takeWhile_front (fun _ => Nat.isDigit_of_mem_toDigits (by decide) (by decide))
    fun c hc => (h c hc).1

theorem dropWhile_toDigits (n : Nat) :
    (Nat.toDigits 10 n ++ rest).dropWhile Char.isDigit = rest :=
  dropWhile_front (fun _ => Nat.isDigit_of_mem_toDigits (by decide) (by decide))
    fun c hc => (h c hc).1

theorem readFraction?_ends : readFraction? rest = some ([], rest) := by
  unfold readFraction?
  split
  · exact ((h '.' rfl).2.1 rfl).elim
  · rfl

theorem readPower?_ends : readPower? rest = some (none, rest) := by
  cases rest with
  | nil => rfl
  | cons c rest => rw [readPower?, if_neg (not_or.2 (h c rfl).2.2)]

omit h in
/-- Digits of a number have no zero in front of others. -/
theorem toDigits_shape (n : Nat) :
    ¬ ((Nat.toDigits 10 n).isEmpty = true ∨
      ((Nat.toDigits 10 n).head? = some '0' ∧ (Nat.toDigits 10 n).length > 1)) := by
  rw [List.isEmpty_iff, not_or, not_and]
  refine ⟨Nat.toDigits_ne_nil, fun hhead => ?_⟩
  rcases Nat.eq_zero_or_pos n with rfl | hn
  · decide
  · exact (head?_toDigits hn hhead).elim

/-- The digits of a number are read with the sign in front of them, if there is one. -/
theorem readNumber?_digits (negative : Bool) (n : Nat) :
    readNumber? ((if negative then ['-'] else []) ++ (Nat.toDigits 10 n ++ rest)) =
      some (number? ⟨negative, Nat.toDigits 10 n, [], 0⟩ true, rest) := by
  have hunsigned : ∀ cs, Nat.toDigits 10 n ++ rest ≠ '-' :: cs := by
    intro cs hcs
    obtain ⟨d, ds, hds, hd⟩ := toDigits_cons n
    rw [hds, List.cons_append, List.cons.injEq] at hcs
    exact absurd (hcs.1 ▸ hd) (by decide)
  cases negative with
  | true =>
    simp only [if_true, List.cons_append, List.nil_append, readNumber?, takeWhile_toDigits h,
      dropWhile_toDigits h, if_neg (toDigits_shape n), readFraction?_ends h, readPower?_ends h,
      Option.bind_some]
    rfl
  | false =>
    rw [if_neg Bool.false_ne_true, List.nil_append, readNumber?.eq_def]
    split
    rename_i negative cs hsign
    split at hsign
    · rename_i hminus
      exact (hunsigned _ hminus).elim
    · obtain ⟨rfl, rfl⟩ := Prod.mk.inj hsign
      simp only [takeWhile_toDigits h, dropWhile_toDigits h, if_neg (toDigits_shape n),
        readFraction?_ends h, readPower?_ends h, Option.bind_some]
      rfl

theorem readNumber?_write {n : Int} (low : -(twoTo 63 : Int) ≤ n) (high : n < twoTo 64) :
    readNumber? (writeNumber n ++ rest) = some (some (.whole n), rest) := by
  rw [writeNumber]
  split
  · rename_i hn
    have habs : -(n.natAbs : Int) = n := by omega
    have hpos : 0 < n.natAbs := by omega
    have hle : n.natAbs ≤ twoTo 63 := by omega
    refine (readNumber?_digits h true n.natAbs).trans ?_
    simp only [number?, ofDigits_toDigits, Bool.not_true, Bool.and_false, Bool.false_and, hpos, hle,
      Bool.and_true, decide_true, if_true, Bool.false_eq_true, if_false, habs]
  · rename_i hn
    have habs : (n.natAbs : Int) = n := by omega
    have hlt : n.natAbs < twoTo 64 := by omega
    refine (readNumber?_digits h false n.natAbs).trans ?_
    simp only [number?, ofDigits_toDigits, Bool.not_false, Bool.and_true, hlt, decide_true, if_true,
      habs]

end

/-! ## Documents -/

theorem skip_cons {c : Char} (h : isSpace c = false) (cs : List Char) :
    skip (c :: cs) = c :: cs := by
  rw [skip, List.dropWhile_cons_of_neg (by simp [h])]

/-- What stands behind a value goes on with no number. -/
theorem ends_writeItems (items : List Document) (rest : List Char) :
    Ends (writeItems items ++ rest) := by
  cases items <;> (rintro c ⟨⟩; decide)

theorem ends_writeFields (fields : List (String × Document)) (rest : List Char) :
    Ends (writeFields fields ++ rest) := by
  cases fields <;> (rintro c ⟨⟩; decide)

/-- A character that begins a number: its sign or a digit. -/
def Begins (c : Char) : Prop := c = '-' ∨ c.isDigit = true

instance (c : Char) : Decidable (Begins c) := inferInstanceAs (Decidable (_ ∨ _))

theorem Begins.ne {c d : Char} (hc : Begins c) (hd : ¬ Begins d) : c ≠ d :=
  fun h => hd (h ▸ hc)

theorem Begins.isSpace_eq_false {c : Char} (hc : Begins c) : isSpace c = false := by
  simp only [isSpace, Bool.or_eq_false_iff, decide_eq_false_iff_not]
  exact ⟨⟨⟨hc.ne (by decide), hc.ne (by decide)⟩, hc.ne (by decide)⟩, hc.ne (by decide)⟩

theorem writeNumber_head (n : Int) : ∃ c cs, writeNumber n = c :: cs ∧ Begins c := by
  rw [writeNumber]
  split
  · exact ⟨_, _, rfl, .inl rfl⟩
  · obtain ⟨d, ds, hds, hd⟩ := toDigits_cons n.natAbs
    exact ⟨d, ds, hds, .inr hd⟩

/-- A document begins with no blank and closes no array. -/
theorem write_head (d : Document) :
    ∃ c cs, write d = c :: cs ∧ isSpace c = false ∧ c ≠ ']' := by
  cases d with
  | null => exact ⟨_, _, rfl, by decide, by decide⟩
  | bool b => cases b <;> exact ⟨_, _, rfl, by decide, by decide⟩
  | string s => exact ⟨_, _, by rw [write, writeText], by decide, by decide⟩
  | array items => cases items <;> exact ⟨_, _, by rw [write], by decide, by decide⟩
  | object fields =>
    cases fields with
    | nil => exact ⟨_, _, by rw [write], by decide, by decide⟩
    | cons field rest => exact ⟨_, _, by rw [write], by decide, by decide⟩
  | number n low high =>
    obtain ⟨c, cs, hcs, hc⟩ := writeNumber_head n
    exact ⟨c, cs, by rw [write, hcs], hc.isSpace_eq_false, hc.ne (by decide)⟩

/-- What begins like a number is read as one. -/
theorem readValue?_number {c : Char} (hc : Begins c) (fuel : Nat) (cs : List Char) :
    readValue? (fuel + 1) (c :: cs) =
      (readNumber? (c :: cs)).map fun (n, rest) => (.number n, rest) := by
  rw [readValue?.eq_def]
  simp only [skip_cons hc.isSpace_eq_false]
  split
  case h_7 => rfl
  all_goals
    rename_i hfront
    exact absurd (List.cons.inj hfront).1 (hc.ne (by decide))


/-- A document is read off the front of a text, if the fuel is enough for its length. -/
def ReadsBack (d : Document) : Prop :=
  ∀ fuel rest, 2 * (write d).length ≤ fuel + 1 → Ends rest →
    readValue? fuel (write d ++ rest) = some (json d, rest)

/-- The items of an array are read back if each of them is. -/
theorem readItems?_write {item : Document} {items : List Document}
    (h : ∀ d ∈ item :: items, ReadsBack d) (fuel : Nat)
    (hfuel : 2 * ((write item).length + (writeItems items).length) ≤ fuel) (rest : List Char) :
    readItems? fuel (write item ++ (writeItems items ++ rest)) =
      some (jsonItems (item :: items), rest) := by
  induction items generalizing item fuel with
  | nil =>
    rw [writeItems, List.length_singleton] at hfuel
    obtain ⟨fuel, rfl⟩ := Nat.exists_eq_add_of_lt (show 0 < fuel by omega)
    rw [readItems?, h item List.mem_cons_self _ _ (by omega) (ends_writeItems [] rest),
      Option.bind_eq_bind, Option.bind_some]
    rfl
  | cons next items ih =>
    rw [writeItems, List.length_cons, List.length_append] at hfuel
    obtain ⟨fuel, rfl⟩ := Nat.exists_eq_add_of_lt (show 0 < fuel by omega)
    have hnext := ih (fun d hd => h d (List.mem_cons_of_mem _ hd)) (0 + fuel)
      (by omega)
    rw [readItems?, h item List.mem_cons_self _ _ (by omega) (ends_writeItems (next :: items) rest)]
    simp (disch := decide) only [Option.bind_eq_bind, Option.bind_some, writeItems,
      List.cons_append, skip_cons, List.append_assoc, hnext, jsonItems]

theorem writeText_append (s : String) (rest : List Char) :
    writeText s ++ rest = '"' :: (s.toList.flatMap writeChar ++ '"' :: rest) := by
  rw [writeText, List.cons_append, List.append_assoc, List.singleton_append]

/-- The fields of an object are read back if the value of each is. -/
theorem readFields?_write (key : String) {value : Document} {fields : List (String × Document)}
    (hvalue : ReadsBack value) (h : ∀ field ∈ fields, ReadsBack field.2) (fuel : Nat)
    (hfuel : 2 * ((write value).length + (writeFields fields).length) ≤ fuel) (rest : List Char) :
    readFields? fuel (writeText key ++ ':' :: (write value ++ (writeFields fields ++ rest))) =
      some (jsonFields ((key, value) :: fields), rest) := by
  induction fields generalizing key value fuel with
  | nil =>
    rw [writeFields, List.length_singleton] at hfuel
    obtain ⟨fuel, rfl⟩ := Nat.exists_eq_add_of_lt (show 0 < fuel by omega)
    have hread := hvalue (0 + fuel) _ (by omega) (ends_writeFields [] rest)
    rw [writeText_append, readFields?, skip_cons (by decide)]
    simp only [readString?_write, Option.bind_eq_bind, Option.bind_some]
    rw [skip_cons (by decide)]
    simp only [hread, Option.bind_some]
    rfl
  | cons next fields ih =>
    obtain ⟨nextKey, next⟩ := next
    simp only [writeFields, List.length_cons, List.length_append] at hfuel
    obtain ⟨fuel, rfl⟩ := Nat.exists_eq_add_of_lt (show 0 < fuel by omega)
    have hread := hvalue (0 + fuel) _ (by omega) (ends_writeFields ((nextKey, next) :: fields) rest)
    have hnext := ih nextKey (h _ List.mem_cons_self)
      (fun field hfield => h field (List.mem_cons_of_mem _ hfield)) (0 + fuel)
      (by dsimp only; omega)
    rw [writeText_append, readFields?, skip_cons (by decide)]
    simp only [readString?_write, Option.bind_eq_bind, Option.bind_some]
    rw [skip_cons (by decide)]
    simp only [hread, Option.bind_some]
    simp (disch := decide) only [writeFields, List.cons_append, List.append_assoc, skip_cons, hnext,
      Option.bind_some, jsonFields]

theorem readsBack_null : ReadsBack .null := by
  intro fuel rest hfuel _
  rw [write, List.length_cons] at hfuel
  obtain ⟨fuel, rfl⟩ := Nat.exists_eq_add_of_lt (show 0 < fuel by omega)
  rfl

theorem readsBack_bool (b : Bool) : ReadsBack (.bool b) := by
  intro fuel rest hfuel _
  cases b <;> rw [write, List.length_cons] at hfuel <;>
    obtain ⟨fuel, rfl⟩ := Nat.exists_eq_add_of_lt (show 0 < fuel by omega) <;> rfl

theorem readsBack_number {n : Int} (low : -(twoTo 63 : Int) ≤ n) (high : n < twoTo 64) :
    ReadsBack (.number n low high) := by
  intro fuel rest hfuel hrest
  obtain ⟨c, cs, hcs, hc⟩ := writeNumber_head n
  have hread := readNumber?_write hrest low high
  rw [write, hcs, List.length_cons] at hfuel
  obtain ⟨fuel, rfl⟩ := Nat.exists_eq_add_of_lt (show 0 < fuel by omega)
  rw [hcs, List.cons_append] at hread
  rw [write, hcs, List.cons_append, readValue?_number hc, hread]
  rfl

theorem readsBack_string (s : String) : ReadsBack (.string s) := by
  intro fuel rest hfuel _
  rw [write, writeText, List.length_cons] at hfuel
  obtain ⟨fuel, rfl⟩ := Nat.exists_eq_add_of_lt (show 0 < fuel by omega)
  rw [write, writeText_append, readValue?.eq_def]
  simp (disch := decide) only [skip_cons, readString?_write, Option.map_some, json]

theorem readsBack_array {items : List Document} (h : ∀ d ∈ items, ReadsBack d) :
    ReadsBack (.array items) := by
  intro fuel rest hfuel _
  cases items with
  | nil =>
    rw [write, List.length_cons] at hfuel
    obtain ⟨fuel, rfl⟩ := Nat.exists_eq_add_of_lt (show 0 < fuel by omega)
    rfl
  | cons item items =>
    simp only [write, List.length_cons, List.length_append] at hfuel
    obtain ⟨fuel, rfl⟩ := Nat.exists_eq_add_of_lt (show 0 < fuel by omega)
    obtain ⟨c, cs, hcs, hspace, hclose⟩ := write_head item
    have hitems := readItems?_write h (0 + fuel) (by omega) rest
    rw [hcs, List.cons_append] at hitems
    rw [write, hcs, List.cons_append, List.append_assoc, List.cons_append, readValue?.eq_def]
    simp only [skip_cons (show isSpace '[' = false by decide), skip_cons hspace]
    split
    · rename_i hfront
      exact absurd (List.cons.inj hfront).1 hclose
    · rw [hitems]
      rfl

theorem readsBack_object {fields : List (String × Document)}
    (h : ∀ field ∈ fields, ReadsBack field.2) : ReadsBack (.object fields) := by
  intro fuel rest hfuel _
  cases fields with
  | nil =>
    rw [write, List.length_cons] at hfuel
    obtain ⟨fuel, rfl⟩ := Nat.exists_eq_add_of_lt (show 0 < fuel by omega)
    rfl
  | cons field fields =>
    obtain ⟨key, value⟩ := field
    simp only [write, List.length_cons, List.length_append] at hfuel
    obtain ⟨fuel, rfl⟩ := Nat.exists_eq_add_of_lt (show 0 < fuel by omega)
    have hfields := readFields?_write key (h _ List.mem_cons_self)
      (fun field hfield => h field (List.mem_cons_of_mem _ hfield)) (0 + fuel)
      (by dsimp only; omega) rest
    simp only [write, List.cons_append, List.append_assoc]
    rw [writeText_append] at hfields ⊢
    rw [readValue?.eq_def]
    simp (disch := decide) only [skip_cons, json]
    exact congrArg (Option.map fun read => (Json.object read.1, read.2)) hfields

/-- Every document is read back. -/
theorem readsBack : ∀ d, ReadsBack d
  | .null => readsBack_null
  | .bool b => readsBack_bool b
  | .number _ low high => readsBack_number low high
  | .string s => readsBack_string s
  | .array items => readsBack_array fun d _ => readsBack d
  | .object fields => readsBack_object fun field _ => readsBack field.2
termination_by d => sizeOf d
decreasing_by
  · have hlt := List.sizeOf_lt_of_mem ‹d ∈ items›
    simp only [array.sizeOf_spec]
    omega
  · have hlt := List.sizeOf_lt_of_mem ‹field ∈ fields›
    have hvalue : sizeOf field.2 < sizeOf field := by
      cases field
      simp only [Prod.mk.sizeOf_spec]
      omega
    simp only [object.sizeOf_spec]
    omega

/-- Reading gives every document back from its text. -/
theorem read?_write (d : Document) : read? (String.ofList (write d)) = some (json d) := by
  have hread := readsBack d (2 * (write d).length + 2) [] (by omega) (by simp [Ends])
  rw [List.append_nil] at hread
  rw [read?_eq_some_iff, String.toList_ofList]
  exact ⟨[], hread, List.forall_mem_nil _⟩

end Document

end ParamSql.Json
