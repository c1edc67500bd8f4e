import BusinessRules.Decimal.Numeral

/-!
# Numerals read in steps

A quick reading of a numeral as a binary number. Its leading digits, as many as 64 bits hold, are
taken for the whole coefficient, and this is multiplied or divided by a power of ten. Every step
rounds, so the result may miss the number nearest to the numeral by a few places.

* `appendDigits` — a coefficient with more digits behind it, while they fit;
* `Numeral.leading` — the coefficient and the exponent that a numeral is read with;
* `Binary64.scaleUp?`, `Binary64.scaleDown?` — the product and the quotient by a power of ten;
* `Numeral.toBinary64InSteps?` — the number that a numeral is read as.
-/

namespace BusinessRules.Decimal

/-! ## Coefficients -/

/-- The bound of coefficients, two to the 64. -/
abbrev coefficientBound : Nat := 18446744073709551616

/-- A coefficient with digits appended up to the first that would take it to the bound, and the
digits from there on. -/
def appendDigits (n : Nat) : List Char → Nat × List Char
  | [] => (n, [])
  | c :: rest =>
    if 10 * n + digitValue c < coefficientBound then appendDigits (10 * n + digitValue c) rest
    else (n, c :: rest)

/-- The coefficient that a numeral is read with, and the power of ten that it stands for. A digit
before the point that is left out raises the exponent, a digit behind the point that is taken
lowers it. Digits behind the point may still fit where one before it did not. -/
def Numeral.leading (n : Numeral) : Nat × Int :=
  let (front, leftOut) := appendDigits 0 n.whole
  let (coefficient, ignored) := appendDigits front n.fraction
  let scale : Int :=
    match n.exponent with
    | none => 0
    | some e => e.toInt
  (coefficient, scale + leftOut.length - (n.fraction.length - ignored.length : Nat))

/-! ## Scaling -/

namespace Binary64

/-- The largest exponent of a power of ten that is a finite binary number. -/
abbrev maxTenExponent : Nat := 308

def powerOfTen? (exponent : Nat) : Option Binary64 := ofDecimal? false 1 exponent

/-- The product with a power of ten; `none` beyond the largest finite number. -/
def scaleUp? (x : Binary64) (exponent : Nat) : Option Binary64 :=
  if x.significand = 0 then some x
  else if exponent ≤ maxTenExponent then (powerOfTen? exponent).bind x.mul?
  else none

/-- The quotient by the same number so many times. Zero stays zero, so it ends the divisions. -/
def divideTimes? (x y : Binary64) : Nat → Option Binary64
  | 0 => some x
  | times + 1 =>
    if x.significand = 0 then some x
    else
      match x.div? y with
      | none => none
      | some quotient => quotient.divideTimes? y times

/-- The quotient by a power of ten. A power beyond the finite numbers is divided by in parts, the
largest ones first. -/
def scaleDown? (x : Binary64) (exponent : Nat) : Option Binary64 :=
  let parts := (exponent - 1) / maxTenExponent
  match (powerOfTen? maxTenExponent).bind fun y => x.divideTimes? y parts with
  | none => none
  | some rest => (powerOfTen? (exponent - parts * maxTenExponent)).bind rest.div?

end Binary64

/-- The binary number that a numeral is read as in steps; `none` beyond the largest finite
number. -/
def Numeral.toBinary64InSteps? (n : Numeral) : Option Binary64 :=
  let (coefficient, exponent) := n.leading
  match Binary64.ofNat? coefficient with
  | none => none
  | some x =>
    let scaled? :=
      if 0 ≤ exponent then x.scaleUp? exponent.toNat else x.scaleDown? (-exponent).toNat
    scaled?.map fun y => { y with negative := n.negative }

end BusinessRules.Decimal
