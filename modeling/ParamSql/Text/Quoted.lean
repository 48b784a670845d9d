import ParamSql.Text.Unprintable

/-!
# Quoted texts

The form in which a text is shown to a reader: in double quotes, on one line, with every
character that could be mistaken for another or for none written as an escape.
-/

namespace ParamSql.Text.Quoted

open ParamSql.Text.Unprintable

/-- The escape of a character by its code point, in lower-case hexadecimal without padding. -/
def codeEscape (c : Char) : List Char :=
  '\\' :: 'u' :: '\x7b' :: (Nat.toDigits 16 c.toNat ++ ['\x7d'])

/-- How one character is written between the quotes. An apostrophe stands for itself. -/
def escape (c : Char) : List Char :=
  match c with
  | '"' => ['\\', '"']
  | '\\' => ['\\', '\\']
  | '\t' => ['\\', 't']
  | '\n' => ['\\', 'n']
  | '\r' => ['\\', 'r']
  | '\x00' => ['\\', '0']
  | c => if isHidden c then codeEscape c else [c]

/-- The characters of a text, escaped and in quotes. -/
def quoteChars (cs : List Char) : List Char :=
  '"' :: (cs.flatMap escape ++ ['"'])

/-- The text, escaped and in quotes. -/
def quote (s : String) : String :=
  String.ofList (quoteChars s.toList)

/-! ## Escapes -/

example : escape '\x1b' = "\\u\x7b1b\x7d".toList ∧ escape '\u00a0' = "\\u\x7ba0\x7d".toList := by
  decide +kernel

example : quoteChars ['a', '"', '\n', '\'', 'é'] = "\"a\\\"\\n'é\"".toList := by
  decide +kernel

end ParamSql.Text.Quoted
