import BusinessRules.Host.Value
import BusinessRules.Json.Lexeme
import BusinessRules.Text.Blank

/-!
# Numbers as a host spells them

A host reads numbers from text more liberally than JSON does. Blanks may stand around a number, a
sign of either kind in front of it, single underscores between its digits and zeros before them; a
point needs digits on one side only; and the values that are no finite numbers have names.

* `joinDigits?` — a text without the underscores between its digits;
* `HostValue.ofIntegerText?` — the integer that a text spells;
* `HostValue.ofFloatText?` — the floating point value that a text spells.
-/

namespace BusinessRules

open Decimal

/-- The text without its underscores, each of which has to stand between two digits. The first
argument says whether a digit stands in front of the text. -/
def joinDigits? (behindDigit : Bool) : List Char → Option (List Char)
  | [] => some []
  | c :: rest =>
    if c = '_' then
      if behindDigit = true ∧ (rest.head?.any Char.isDigit) = true then joinDigits? false rest
      else none
    else
      match joinDigits? c.isDigit rest with
      | none => none
      | some joined => some (c :: joined)

/-- A text without the sign in front of it, and whether that is a minus. -/
def readSign : List Char → Bool × List Char
  | '-' :: rest => (true, rest)
  | '+' :: rest => (false, rest)
  | rest => (false, rest)

namespace HostValue

/-- The integer that a text spells. -/
def ofIntegerText? (text : String) : Option HostValue :=
  match joinDigits? false (Text.trim text.toList) with
  | none => none
  | some joined =>
    let (negative, ds) := readSign joined
    if ds ≠ [] ∧ ds.all Char.isDigit = true then
      some (.integer (if negative then -(value ds : Int) else value ds))
    else none

/-- The numeral without a sign that a text spells: digits on at least one side of the point, if
there is one, and an exponent, if there is one. -/
def readMagnitude? (cs : List Char) : Option Numeral :=
  let whole := cs.takeWhile Char.isDigit
  let (fraction, behind) :=
    match cs.dropWhile Char.isDigit with
    | '.' :: rest => (rest.takeWhile Char.isDigit, rest.dropWhile Char.isDigit)
    | rest => ([], rest)
  match Json.readExponent? behind with
  | some (exponent, []) =>
    if whole ++ fraction = [] then none else some ⟨false, whole, fraction, exponent⟩
  | _ => none

/-- The floating point value that a text spells. A number beyond the largest finite one is
infinite; names are read in either case. -/
def ofFloatText? (text : String) : Option HostValue :=
  match joinDigits? false (Text.trim text.toList) with
  | none => none
  | some joined =>
    let (negative, body) := readSign joined
    let name := String.ofList (body.map Char.toLower)
    if name = "nan" then some (.nonFinite .nan)
    else if name = "inf" ∨ name = "infinity" then some (.nonFinite (.infinite negative))
    else
      match readMagnitude? body with
      | none => none
      | some magnitude =>
        match ({ magnitude with negative := negative } : Numeral).toBinary64? with
        | some x => some (.float x)
        | none => some (.nonFinite (.infinite negative))

end HostValue

end BusinessRules
