import ParamSql.Text.Hexadecimal

/-!
# Percent-encoded text

In a URL a percent sign and two hexadecimal digits are one byte. All other characters, a percent
sign without two digits after it among them, are their own bytes in UTF-8. What the bytes of a URL
say is a text only if they are UTF-8.

Results:
* `bytes_of_notMem`: without a percent sign every character is its own bytes.
* `text?_of_notMem`: without a percent sign a text says itself.
-/

namespace ParamSql.Text.Percent

/-- The byte of two hexadecimal digits. -/
def byte? (high low : Char) : Option UInt8 := do
  let high ← hexDigit? high
  let low ← hexDigit? low
  some (UInt8.ofNat (16 * high + low))

/-- The bytes that a percent-encoded text stands for. -/
def bytes : List Char → List UInt8
  | [] => []
  | '%' :: high :: low :: rest =>
    match byte? high low with
    | some b => b :: bytes rest
    | none => String.utf8EncodeChar '%' ++ bytes (high :: low :: rest)
  | c :: rest => String.utf8EncodeChar c ++ bytes rest

/-- The text that a percent-encoded text stands for, if its bytes are UTF-8. -/
def text? (cs : List Char) : Option (List Char) :=
  (String.fromUTF8? (bytes cs).toByteArray).map String.toList

theorem bytes_of_notMem {cs : List Char} (h : '%' ∉ cs) :
    bytes cs = cs.flatMap String.utf8EncodeChar := by
  induction cs with
  | nil => rfl
  | cons c rest ih =>
    rw [List.mem_cons, not_or] at h
    rw [bytes, ih h.2, List.flatMap_cons]
    rintro _ _ _ rfl
    exact absurd rfl h.1

theorem text?_of_notMem {cs : List Char} (h : '%' ∉ cs) : text? cs = some cs := by
  have key : (bytes cs).toByteArray = (String.ofList cs).toByteArray := by
    rw [bytes_of_notMem h]
    rfl
  have valid : (bytes cs).toByteArray.IsValidUTF8 := key ▸ (String.ofList cs).isValidUTF8
  have same : String.fromUTF8 _ valid = String.ofList cs := String.toByteArray_inj.1 key
  rw [text?, String.fromUTF8?, dif_pos valid, same, Option.map_some, String.toList_ofList]

/-! ## Escapes -/

example : bytes "%41%C3%a9%2".toList = [0x41, 0xC3, 0xA9, 0x25, 0x32] := by decide +kernel

example : text? "%".toList = some ['%'] ∧ text? "%2F".toList = some ['/'] := by decide +kernel

end ParamSql.Text.Percent
