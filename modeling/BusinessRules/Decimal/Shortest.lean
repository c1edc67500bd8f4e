import BusinessRules.Decimal.Binary64

/-!
# Shortest decimals

The decimal with the fewest digits that reads back as a given binary number, found in exact
integer arithmetic:

* `Scaled` — the value and the reals that round to it, as integers over one denominator;
* `Scaled.onGrid?` — the multiple of a power of ten nearest to the value, if it reads back;
* `shortest` — the first hit on the grids of 1, 2, … 17 digits.

Of the multiples of `10 ^ k` only the two around the value can be nearest, and if any multiple
reads back then one of those two does; so a grid without a hit holds no decimal that reads back.
-/

namespace BusinessRules.Decimal

/-- A positive value `value / unit`, with the ends of the interval of reals that round to it. The
ends themselves round to it exactly when the significand is even. -/
structure Scaled where
  low : Nat
  value : Nat
  high : Nat
  unit : Nat
  closed : Bool

/-- The magnitude of a number and its interval, in quarters of its last place. The gap below a
power of two is half the gap above it. -/
def Binary64.scaled (x : Binary64) : Scaled :=
  let up := (max x.place 0).toNat
  let down := (max (-x.place) 0).toNat
  let below := if x.significand = 4503599627370496 ∧ x.place ≠ -1074 then 1 else 2
  ⟨(4 * x.significand - below) * twoTo up, 4 * x.significand * twoTo up,
    (4 * x.significand + 2) * twoTo up, 4 * twoTo down, x.significand % 2 = 0⟩

/-- The decimal exponent of the leading digit of a positive ratio. -/
def leadingExponent (num den : Nat) : Int :=
  if den ≤ num then ((digits (num / den)).length : Int) - 1
  else -((digits ((den + num - 1) / num - 1)).length : Int)

/-- The multiple `c · 10 ^ exponent` nearest to the value among those that read back as it; of two
equally near ones the even. -/
def Scaled.onGrid? (s : Scaled) (exponent : Int) : Option Nat :=
  let grow := tenTo (max (-exponent) 0).toNat
  let step := s.unit * tenTo (max exponent 0).toNat
  let value := s.value * grow
  let readsBack (c : Nat) : Bool :=
    if s.closed then s.low * grow ≤ c * step && c * step ≤ s.high * grow
    else s.low * grow < c * step && c * step < s.high * grow
  let c := value / step
  let excess := 2 * (value % step)
  match readsBack c, readsBack (c + 1) with
  | false, false => none
  | true, false => some c
  | false, true => some (c + 1)
  | true, true =>
    if excess < step then some c
    else if step < excess then some (c + 1)
    else if c % 2 = 0 then some c
    else some (c + 1)

/-- A coefficient without trailing zeros, each one moved into the exponent. The first argument
bounds how many are moved. -/
def withoutTrailingZeros : Nat → Nat → Int → Nat × Int
  | 0, c, k => (c, k)
  | bound + 1, c, k =>
    if c % 10 = 0 then withoutTrailingZeros bound (c / 10) (k + 1) else (c, k)

/-- The multiple `c · 10 ^ exponent` nearest to the value, whether it reads back or not. -/
def Scaled.nearest (s : Scaled) (exponent : Int) : Nat :=
  Binary64.roundHalfEven (s.value * tenTo (max (-exponent) 0).toNat)
    (s.unit * tenTo (max exponent 0).toNat)

/-- The decimal `c · 10 ^ k` with the fewest digits that reads back as the magnitude of a number
other than zero, the nearest of those. With seventeen digits the nearest decimal always does. -/
def shortest (x : Binary64) : Nat × Int :=
  let s := x.scaled
  let top := leadingExponent s.value s.unit
  let hit := (List.range 16).findSome? fun (more : Nat) =>
    (s.onGrid? (top - more)).map fun c => (c, top - (more : Int))
  match hit with
  | some (c, k) => withoutTrailingZeros 17 c k
  | none => withoutTrailingZeros 17 (s.nearest (top - 16)) (top - 16)

end BusinessRules.Decimal
