import BusinessRules.Decimal.Digits

/-!
# Positions at the end of a message

A message about a text may end in the position where the text went wrong, as in
`bad word at line 3 column 7`.

* `Located` — a message and its position;
* `Located.ofMessage?` — the position at the end of a message;
* `Located.print` — a message with its position, which is left out on line 0;
* `restatePosition` — a message with the position at its end written anew.
-/

namespace BusinessRules.Text

/-- A message and the position it speaks of; lines and columns count from one, so that line 0
stands for no position. -/
structure Located where
  text : List Char
  line : Nat
  column : Nat
  deriving DecidableEq, Repr

namespace Located

/-- What stands before the number of a line. -/
def lineMark : List Char := [' ', 'a', 't', ' ', 'l', 'i', 'n', 'e', ' ']

/-- What stands before the number of a column. -/
def columnMark : List Char := [' ', 'c', 'o', 'l', 'u', 'm', 'n', ' ']

/-- The bound of lines and columns, two to the 64. -/
abbrev bound : Nat := 18446744073709551616

/-- A text without the digits at its end, and these digits. -/
def cutDigits (cs : List Char) : List Char × List Char :=
  ((cs.reverse.dropWhile Char.isDigit).reverse, (cs.reverse.takeWhile Char.isDigit).reverse)

/-- A text without the mark it ends in. -/
def cutMark? (mark cs : List Char) : Option (List Char) :=
  if cs.drop (cs.length - mark.length) = mark then some (cs.take (cs.length - mark.length))
  else none

/-- The number that digits spell, if there are any and they spell one below the bound. -/
def number? (cs : List Char) : Option Nat :=
  if cs ≠ [] ∧ Decimal.value cs < bound then some (Decimal.value cs) else none

/-- The position at the end of a message: both marks, each with a number behind it, and nothing
further. Leading zeros are allowed. -/
def ofMessage? (message : List Char) : Option Located :=
  match cutMark? columnMark (cutDigits message).1 with
  | none => none
  | some front =>
    match cutMark? lineMark (cutDigits front).1 with
    | none => none
    | some text =>
      match number? (cutDigits front).2, number? (cutDigits message).2 with
      | some line, some column => some ⟨text, line, column⟩
      | _, _ => none

/-- The message followed by its position, if it has one. -/
def print (m : Located) : List Char :=
  if m.line = 0 then m.text
  else m.text ++ lineMark ++ Decimal.digits m.line ++ columnMark ++ Decimal.digits m.column

end Located

/-- The message with the position at its end, if any, written anew: in plain decimals, and left
out on line 0. -/
def restatePosition (message : String) : String :=
  match Located.ofMessage? message.toList with
  | none => message
  | some m => String.ofList m.print

example : restatePosition "bad word at line 03 column 007" = "bad word at line 3 column 7" := by
  decide +kernel

example : restatePosition "bad word at line 0 column 7" = "bad word" := by decide +kernel

end BusinessRules.Text
