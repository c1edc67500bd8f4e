import BusinessRules.Decimal.Digits

/-!
# Binary floating point numbers

The finite numbers of the 64-bit binary format, as a sign, a significand below `2 ^ 53` and the
power of two of its last place. All arithmetic on them is exact, in natural numbers and integers:

* `Binary64` — the numbers, each with one representation (the two zeros differ by their sign);
* `Binary64.units` — the exact value, in units of the smallest positive number;
* `Binary64.compare` — the order of the exact values;
* `Binary64.ofRatio?` — the number nearest to a ratio, ties to the even significand;
* `Binary64.ofDecimal?` — the number nearest to `coefficient · 10 ^ exponent`;
* `Binary64.mul?`, `Binary64.div?` — the numbers nearest to a product and to a quotient.
-/

namespace BusinessRules.Decimal

/-- A finite number `± significand · 2 ^ place`. The significand is full (53 bits) unless the
place is the lowest one there is. -/
structure Binary64 where
  negative : Bool
  significand : Nat
  place : Int
  /-- below two to the 53 -/
  significand_lt : significand < 9007199254740992
  place_ge : -1074 ≤ place
  place_le : place ≤ 971
  /-- at least two to the 52 -/
  full : place = -1074 ∨ 4503599627370496 ≤ significand
  deriving DecidableEq

namespace Binary64

/-- The number of these parts, if they are one's parts. -/
def ofParts? (negative : Bool) (significand : Nat) (place : Int) : Option Binary64 :=
  if h : significand < 9007199254740992 ∧ -1074 ≤ place ∧ place ≤ 971 ∧
      (place = -1074 ∨ 4503599627370496 ≤ significand) then
    some ⟨negative, significand, place, h.1, h.2.1, h.2.2.1, h.2.2.2⟩
  else none

def zero (negative : Bool) : Binary64 :=
  ⟨negative, 0, -1074, by decide, by decide, by decide, .inl rfl⟩

/-- The exact value, in units of `2 ^ -1074`. -/
def units (x : Binary64) : Int :=
  let size : Nat := x.significand * twoTo (x.place + 1074).toNat
  if x.negative then -size else size

/-- The order of the exact values; the two zeros are equal. -/
def compare (x y : Binary64) : Ordering := Ord.compare x.units y.units

/-- The integer nearest to a ratio, a half going to the even neighbour. -/
def roundHalfEven (num den : Nat) : Nat :=
  let below := num / den
  let excess := 2 * (num % den)
  if excess < den then below
  else if den < excess then below + 1
  else if below % 2 = 0 then below
  else below + 1

/-- The exponent of the largest power of two that is not above a positive ratio. -/
def floorLog2 (num den : Nat) : Int :=
  let guess : Int := (num.log2 : Int) - (den.log2 : Int)
  let reached :=
    if 0 ≤ guess then den * twoTo guess.toNat ≤ num else den ≤ num * twoTo (-guess).toNat
  if reached then guess else guess - 1

/-- The number nearest to a ratio of naturals, ties to the even significand; `none` when that
lies beyond the largest finite number. -/
def ofRatio? (negative : Bool) (num den : Nat) : Option Binary64 :=
  if num = 0 then some (zero negative)
  else
    let place := max (floorLog2 num den - 52) (-1074)
    let significand :=
      if 0 ≤ place then roundHalfEven num (den * twoTo place.toNat)
      else roundHalfEven (num * twoTo (-place).toNat) den
    if significand = 9007199254740992 then ofParts? negative 4503599627370496 (place + 1)
    else ofParts? negative significand place

/-- The number nearest to a natural number. -/
def ofNat? (n : Nat) : Option Binary64 := ofRatio? false n 1

/-- The number nearest to `± coefficient · 10 ^ exponent`. The powers of ten are formed only where
the value is within reach of the format: from `10 ^ 400` on there is none, and below `10 ^ -400`
the nearest number is zero. -/
def ofDecimal? (negative : Bool) (coefficient : Nat) (exponent : Int) : Option Binary64 :=
  let magnitude : Int := exponent + (digits coefficient).length
  if coefficient = 0 then some (zero negative)
  else if 400 < magnitude then none
  else if magnitude < -400 then some (zero negative)
  else if 0 ≤ exponent then ofRatio? negative (coefficient * tenTo exponent.toNat) 1
  else ofRatio? negative coefficient (tenTo (-exponent).toNat)

/-- The magnitude as a ratio of naturals. -/
def ratio (x : Binary64) : Nat × Nat :=
  (x.significand * twoTo x.place.toNat, twoTo (-x.place).toNat)

/-- The number nearest to a product; `none` beyond the largest finite number. -/
def mul? (x y : Binary64) : Option Binary64 :=
  ofRatio? (x.negative != y.negative) (x.ratio.1 * y.ratio.1) (x.ratio.2 * y.ratio.2)

/-- The number nearest to a quotient; `none` beyond the largest finite number, and by zero. -/
def div? (x y : Binary64) : Option Binary64 :=
  if y.significand = 0 then none
  else ofRatio? (x.negative != y.negative) (x.ratio.1 * y.ratio.2) (x.ratio.2 * y.ratio.1)

end Binary64

end BusinessRules.Decimal
