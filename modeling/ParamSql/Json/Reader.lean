import ParamSql.Json
import ParamSql.Decimal.Reader
import ParamSql.Text.Hexadecimal

/-!
# Reading a JSON document

`Json.read?` accepts exactly the texts that are one document, with blanks around it or without. A
string with half of a surrogate pair and a number beyond every finite datum are read as `none`, so
that they are refused only where they are used. A number that is not whole, or too large for 64
bits, is read with a significand of 64 bits that is rounded once and scaled once by a power of ten.
-/

namespace ParamSql.Json

open Decimal Text

/-! ## Blanks and numbers -/

/-- Whether a character is a blank between tokens. -/
def isSpace (c : Char) : Bool :=
  c = ' ' || c = '\n' || c = '\t' || c = '\r'

/-- Skips blanks. -/
def skip (cs : List Char) : List Char :=
  cs.dropWhile isSpace

/-- Appends digits to a significand as long as it stays below 2^64. Returns it with the number of
digits that were taken. -/
def appendDigits : Nat → Nat → List Char → Nat × Nat
  | n, taken, [] => (n, taken)
  | n, taken, d :: rest =>
    let next := 10 * n + (d.toNat - '0'.toNat)
    if next < twoTo 64 then appendDigits next (taken + 1) rest else (n, taken)

/-- The numerator and denominator of a finite datum. -/
def fractionOf : Binary → Nat × Nat
  | .finite _ m e => inUnits m 1 (-e)
  | _ => (0, 1)

/-- The datum of `10 ^ k`. -/
def powerOfTen (k : Nat) : Nat × Nat :=
  fractionOf (Format.double.round false (tenTo k) 1)

/-- A significand scaled by a power of ten: both are rounded to data first and their product or
quotient is rounded once more. Above `10 ^ 308` there is no power, and a result without finite
datum is refused; below `10 ^ -308` the scaling takes steps. -/
def scale? (negative : Bool) : (steps : Nat) → Nat × Nat → Int → Option Binary
  | 0, _, _ => some (.finite negative 0 Format.double.minExponent)
  | steps + 1, (num, den), exponent =>
    if num = 0 then some (.finite negative 0 Format.double.minExponent)
    else if exponent > 308 then none
    else if exponent < -308 then
      let (p, q) := powerOfTen 308
      scale? negative steps (fractionOf (Format.double.round false (num * q) (den * p)))
        (exponent + 308)
    else
      let (p, q) := powerOfTen exponent.natAbs
      let x :=
        if exponent ≥ 0 then Format.double.round negative (num * p) (den * q)
        else Format.double.round negative (num * q) (den * p)
      match x with
      | .infinite _ => none
      | x => some x

/-- A written number that is not whole. -/
def float? (w : Written) : Option Binary :=
  let (n, wholeTaken) := appendDigits 0 0 w.whole
  let (n, fractionTaken) := appendDigits n 0 w.fraction
  let exponent := w.exponent + (w.whole.length - wholeTaken : Nat) - fractionTaken
  scale? w.negative 4 (fractionOf (Format.double.round false n 1)) exponent

/-- A written number. Whole numbers outside the 64-bit ranges and the whole number `-0` are
floating-point. -/
def number? (w : Written) (plain : Bool) : Option Number :=
  let n := ofDigits w.whole
  if plain && !w.negative && n < twoTo 64 then some (.whole n)
  else if plain && w.negative && 0 < n && n ≤ twoTo 63 then some (.whole (-(n : Int)))
  else (float? w).map .float

/-- Reads the fraction of a number: nothing, or a point and at least one digit. -/
def readFraction? : List Char → Option (List Char × List Char)
  | '.' :: rest =>
    let digits := rest.takeWhile Char.isDigit
    if digits.isEmpty then none else some (digits, rest.dropWhile Char.isDigit)
  | cs => some ([], cs)

/-- Reads the exponent of a number: nothing, or `e`, an optional sign and at least one digit. -/
def readPower? : List Char → Option (Option Int × List Char)
  | c :: rest =>
    if c = 'e' ∨ c = 'E' then
      let (negative, cs) := readSign rest
      let digits := cs.takeWhile Char.isDigit
      if digits.isEmpty then none
      else
        let n : Int := ofDigits digits
        some (some (if negative then -n else n), cs.dropWhile Char.isDigit)
    else some (none, c :: rest)
  | [] => some (none, [])

/-- Reads a number off the front. A zero in front of other digits is refused. -/
def readNumber? (cs : List Char) : Option (Option Number × List Char) :=
  let (negative, cs) :=
    match cs with
    | '-' :: rest => (true, rest)
    | cs => (false, cs)
  let whole := cs.takeWhile Char.isDigit
  if whole.isEmpty ∨ (whole.head? = some '0' ∧ whole.length > 1) then none
  else
    (readFraction? (cs.dropWhile Char.isDigit)).bind fun (fraction, cs) =>
    (readPower? cs).bind fun (power, cs) =>
    some (number? ⟨negative, whole, fraction, power.getD 0⟩ (fraction.isEmpty && power.isNone), cs)

/-! ## Strings -/

/-- Reads four hexadecimal digits. -/
def readUnit? : List Char → Option (Nat × List Char)
  | a :: b :: c :: d :: rest => do
    let a ← hexDigit? a
    let b ← hexDigit? b
    let c ← hexDigit? c
    let d ← hexDigit? d
    some (((a * 16 + b) * 16 + c) * 16 + d, rest)
  | _ => none

/-- The character of an escape of one letter. -/
def escaped? : Char → Option Char
  | '"' => some '"'
  | '\\' => some '\\'
  | '/' => some '/'
  | 'b' => some '\x08'
  | 'f' => some '\x0c'
  | 'n' => some '\n'
  | 'r' => some '\r'
  | 't' => some '\t'
  | _ => none

/-- The code units of a string and what follows its closing quote. Units above `0xFFFF` are whole
characters; an escape by code gives one unit of sixteen bits. -/
def readUnits? : (fuel : Nat) → List Char → Option (List Nat × List Char)
  | 0, _ => none
  | _ + 1, [] => none
  | _ + 1, '"' :: rest => some ([], rest)
  | fuel + 1, '\\' :: 'u' :: rest => do
    let (unit, rest) ← readUnit? rest
    let (units, rest) ← readUnits? fuel rest
    some (unit :: units, rest)
  | fuel + 1, '\\' :: c :: rest => do
    let c ← escaped? c
    let (units, rest) ← readUnits? fuel rest
    some (c.toNat :: units, rest)
  | fuel + 1, c :: rest => do
    if c.toNat < 0x20 ∨ c = '\\' then none
    else
      let (units, rest) ← readUnits? fuel rest
      some (c.toNat :: units, rest)

/-- The text of a row of units: a high half followed by a low half is one character, and a half that
stands alone is none. -/
def ofUnits? : List Nat → Option (List Char)
  | [] => some []
  | u :: rest =>
    if 0xD800 ≤ u ∧ u < 0xDC00 then
      match rest with
      | v :: rest =>
        if 0xDC00 ≤ v ∧ v < 0xE000 then
          (ofUnits? rest).map (Char.ofNat (0x10000 + (u - 0xD800) * 0x400 + (v - 0xDC00)) :: ·)
        else none
      | [] => none
    else if 0xDC00 ≤ u ∧ u < 0xE000 then none
    else (ofUnits? rest).map (Char.ofNat u :: ·)

/-- Reads a string after its opening quote. -/
def readString? (cs : List Char) : Option (Option String × List Char) :=
  (readUnits? (cs.length + 1) cs).map fun (units, rest) =>
    ((ofUnits? units).map String.ofList, rest)

/-! ## Documents -/

/-- What follows a fixed word. -/
def afterWord? : List Char → List Char → Option (List Char)
  | [], cs => some cs
  | w :: ws, c :: cs => if w = c then afterWord? ws cs else none
  | _ :: _, [] => none

mutual

/-- Reads a document off the front. Every nested call has read at least one character, so the
length of the text is fuel enough. -/
def readValue? : (fuel : Nat) → List Char → Option (Json × List Char)
  | 0, _ => none
  | fuel + 1, cs =>
    match skip cs with
    | '"' :: rest => (readString? rest).map fun (s, rest) => (.string s, rest)
    | '[' :: rest =>
      match skip rest with
      | ']' :: rest => some (.array [], rest)
      | rest => (readItems? fuel rest).map fun (items, rest) => (.array items, rest)
    | '\x7b' :: rest =>
      match skip rest with
      | '\x7d' :: rest => some (.object [], rest)
      | rest => (readFields? fuel rest).map fun (fields, rest) => (.object fields, rest)
    | 'n' :: rest => (afterWord? ['u', 'l', 'l'] rest).map fun rest => (.null, rest)
    | 't' :: rest => (afterWord? ['r', 'u', 'e'] rest).map fun rest => (.bool true, rest)
    | 'f' :: rest => (afterWord? ['a', 'l', 's', 'e'] rest).map fun rest => (.bool false, rest)
    | cs => (readNumber? cs).map fun (n, rest) => (.number n, rest)

/-- Reads the items of an array up to its closing bracket. -/
def readItems? : (fuel : Nat) → List Char → Option (List Json × List Char)
  | 0, _ => none
  | fuel + 1, cs => do
    let (item, rest) ← readValue? fuel cs
    match skip rest with
    | ']' :: rest => some ([item], rest)
    | ',' :: rest =>
      let (items, rest) ← readItems? fuel rest
      some (item :: items, rest)
    | _ => none

/-- Reads the fields of an object up to its closing brace. -/
def readFields? : (fuel : Nat) → List Char → Option (List (Option String × Json) × List Char)
  | 0, _ => none
  | fuel + 1, cs =>
    match skip cs with
    | '"' :: rest => do
      let (key, rest) ← readString? rest
      match skip rest with
      | ':' :: rest =>
        let (value, rest) ← readValue? fuel rest
        match skip rest with
        | '\x7d' :: rest => some ([(key, value)], rest)
        | ',' :: rest =>
          let (fields, rest) ← readFields? fuel rest
          some ((key, value) :: fields, rest)
        | _ => none
      | _ => none
    | _ => none

end

/-- Reads a text that is one document. -/
def read? (s : String) : Option Json :=
  let cs := s.toList
  match readValue? (2 * cs.length + 2) cs with
  | some (json, rest) => if (skip rest).isEmpty then some json else none
  | none => none

end ParamSql.Json
