import BusinessRules.Text.Printable

/-!
# Quoted text in messages

A message that shows a text puts it between double quotation marks and escapes what would be
misread:

* `quotedChar` — one character inside the marks;
* `quoted` — the whole text with its marks.
-/

namespace BusinessRules.Text

/-- The lower-case hexadecimal digits of a number, without leading zeros. -/
def hexDigits (n : Nat) : List Char := Nat.toDigits 16 n

/-- A character as it stands between the marks: a letter escape for the common controls, the mark
and the backslash, the code point in braces for the other characters that cannot be seen. -/
def quotedChar (c : Char) : List Char :=
  if c = '\x00' then ['\\', '0']
  else if c = '\t' then ['\\', 't']
  else if c = '\n' then ['\\', 'n']
  else if c = '\r' then ['\\', 'r']
  else if c = '"' then ['\\', '"']
  else if c = '\\' then ['\\', '\\']
  else if isShownByCode c then ['\\', 'u', '\x7b'] ++ hexDigits c.toNat ++ ['\x7d']
  else [c]

/-- The text between double quotation marks. -/
def quoted (s : String) : String :=
  String.ofList ('"' :: s.toList.flatMap quotedChar ++ ['"'])

example : quoted "a\t\"b\"" = "\"a\\t\\\"b\\\"\"" := by decide +kernel

end BusinessRules.Text
