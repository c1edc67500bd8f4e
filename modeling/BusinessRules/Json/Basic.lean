import BusinessRules.Decimal.Numeral
import BusinessRules.Json.Members

/-!
# JSON values

The dynamic values that records hold and that expressions are stored as. `Kind.name` is the model of
`value_kind`.

* `WideInt` — integers that fit 64 bits, signed or unsigned;
* `Number` — such an integer, or a finite binary number;
* `Json` — null, booleans, numbers, strings, arrays and objects, the members of an object in
  increasing order of their keys;
* `Json.ofMembers` — an object from members in any order;
* `Number.ofNumeral?` — the number a numeral spells; `Number.ofNumeralBy?` — the same with another
  reading of the numerals that spell no integer.
-/

namespace BusinessRules

open Decimal

/-- An integer that fits 64 bits, signed or unsigned. -/
structure WideInt where
  val : Int
  /-- from minus two to the 63 -/
  ge : -9223372036854775808 ≤ val
  /-- to below two to the 64 -/
  lt : val < 18446744073709551616
  deriving DecidableEq

/-- The integer, if it fits. -/
def WideInt.ofInt? (i : Int) : Option WideInt :=
  if h : -9223372036854775808 ≤ i ∧ i < 18446744073709551616 then some ⟨i, h.1, h.2⟩ else none

theorem WideInt.ofInt?_val (n : WideInt) : WideInt.ofInt? n.val = some n :=
  dif_pos ⟨n.ge, n.lt⟩

/-- A number: an integer of 64 bits or a finite binary number. The integer `1` and the binary
number `1.0` differ. -/
inductive Number where
  | integer (n : WideInt)
  | float (x : Binary64)
  deriving DecidableEq

/-- The number that a numeral spells: an integer where it is spelled like one and fits, and what
`float?` reads otherwise. Zero with a minus sign is a binary number, since no integer keeps the
sign. -/
def Number.ofNumeralBy? (float? : Numeral → Option Binary64) (n : Numeral) : Option Number :=
  let asFloat := (float? n).map Number.float
  if n.isInteger = true ∧ ¬ (n.negative = true ∧ n.toInt = 0) then
    match WideInt.ofInt? n.toInt with
    | some i => some (.integer i)
    | none => asFloat
  else asFloat

/-- The number that a numeral spells, the nearest binary number where it spells no integer; `none`
beyond the largest finite number. -/
def Number.ofNumeral? (n : Numeral) : Option Number := ofNumeralBy? Numeral.toBinary64? n

def Number.numeral : Number → Numeral
  | .integer n => .ofInt n.val
  | .float x => .ofBinary64 .plain x

/-- A JSON value. -/
inductive Json where
  | null
  | bool (b : Bool)
  | number (n : Number)
  | string (s : String)
  | array (items : List Json)
  | object (members : List (String × Json))

namespace Json

/-- The object of members given in any order; a later one replaces an earlier one of its key. -/
def ofMembers (entries : List (String × Json)) : Json := .object (Members.ofList entries)

/-- The kinds of values, as a message names them. -/
inductive Kind where
  | null
  | boolean
  | number
  | string
  | array
  | object
  deriving DecidableEq, Repr

def kind : Json → Kind
  | .null => .null
  | .bool _ => .boolean
  | .number _ => .number
  | .string _ => .string
  | .array _ => .array
  | .object _ => .object

def Kind.name : Kind → String
  | .null => "null"
  | .boolean => "boolean"
  | .number => "number"
  | .string => "string"
  | .array => "array"
  | .object => "object"

end Json

end BusinessRules
