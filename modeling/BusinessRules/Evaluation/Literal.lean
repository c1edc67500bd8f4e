import BusinessRules.Decimal.Digits

/-!
# Literals of conditions

Model of `Literal` with `from_raw` and `kind`, and of `strip_quotes`. The right side of a comparison
is an integer or a text.

* `Literal` — integers below `Literal.bound`, and texts;
* `stripQuotes` — a text without one pair of matching quotes around it;
* `Literal.ofRaw` — the literal that a text denotes.
-/

namespace BusinessRules

/-- The bound of integer literals, two to the 63. -/
abbrev Literal.bound : Nat := 9223372036854775808

/-- The right side of a comparison. -/
inductive Literal where
  | integer (n : Fin Literal.bound)
  | text (s : String)
  deriving DecidableEq, Repr

namespace Literal

/-- The kinds of literals, as a message names them. -/
inductive Kind where
  | integer
  | string
  deriving DecidableEq, Repr

def kind : Literal → Kind
  | .integer _ => .integer
  | .text _ => .string

def Kind.name : Kind → String
  | .integer => "integer"
  | .string => "string"

/-- The text without its first and last character, if both are the same quote (`strip_quotes`). A
lone quote is not a pair. -/
def stripQuotes : List Char → List Char
  | [] => []
  | c :: rest =>
    if (c = '\'' ∨ c = '"') ∧ rest.getLast? = some c then rest.dropLast else c :: rest

/-- The literal that a text denotes (`Literal.from_raw`): an integer if digits and nothing else
stand between the quotes, if any, and spell a number below the bound; a text otherwise. Signs and
points are not digits. -/
def ofRaw (raw : String) : Literal :=
  let body := stripQuotes raw.toList
  if body ≠ [] ∧ body.all Char.isDigit = true then
    if h : Decimal.value body < bound then .integer ⟨Decimal.value body, h⟩
    else .text (String.ofList body)
  else .text (String.ofList body)

end Literal

end BusinessRules
