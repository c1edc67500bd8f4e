import BusinessRules.Json.Lexeme
import BusinessRules.Text.Quoted

/-!
# What a message says was found

A value that stands where another kind of value is expected is named in the message by its kind,
scalars with their value.

* `Shown` — what is named;
* `Shown.text` — its wording;
* `Json.shown`, `Document.shown` — what a message names a value as.
-/

namespace BusinessRules.Json

open Decimal

/-- A value as a message names it. -/
inductive Shown where
  | null
  | boolean (b : Bool)
  | integer (i : Int)
  | float (x : Binary64)
  | string (s : String)
  | sequence
  | map
  deriving DecidableEq

/-- The wording: integers by their digits, binary numbers in their shortest form, strings
quoted. -/
def Shown.text : Shown → String
  | .null => "null"
  | .boolean b => "boolean `" ++ (if b then "true" else "false") ++ "`"
  | .integer i => "integer `" ++ Decimal.ofInt i ++ "`"
  | .float x => "floating point `" ++ String.ofList (Numeral.ofBinary64 .plain x).print ++ "`"
  | .string s => "string " ++ Text.quoted s
  | .sequence => "sequence"
  | .map => "map"

def Shown.ofNumber : Number → Shown
  | .integer n => .integer n.val
  | .float x => .float x

def shown : Json → Shown
  | .null => .null
  | .bool b => .boolean b
  | .number n => .ofNumber n
  | .string s => .string s
  | .array _ => .sequence
  | .object _ => .map

end BusinessRules.Json
