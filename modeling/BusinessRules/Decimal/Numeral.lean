import BusinessRules.Decimal.Shortest

/-!
# Numerals

A number as it is spelled in data text: `-12.5e+3`.

* `Numeral` — sign, digits before and after the point, exponent;
* `Numeral.print` — its spelling;
* `Numeral.isInteger`, `Numeral.toInt`, `Numeral.toBinary64?` — the number it spells;
* `Numeral.ofNat`, `Numeral.ofInt` — integers;
* `Layout`, `Numeral.ofBinary64` — a binary number in its shortest decimal form, laid out with or
  without an exponent.
-/

namespace BusinessRules.Decimal

/-- The exponent part of a numeral. -/
structure Exponent where
  negative : Bool
  digits : List Char
  deriving DecidableEq, Repr

/-- A spelled number. No digits after the point means that there is no point either. -/
structure Numeral where
  negative : Bool
  whole : List Char
  fraction : List Char
  exponent : Option Exponent
  deriving DecidableEq, Repr

def Exponent.toInt (e : Exponent) : Int :=
  if e.negative then -(value e.digits : Int) else value e.digits

/-- An exponent part, its sign always written. -/
def Exponent.print (e : Exponent) : List Char :=
  'e' :: (if e.negative then '-' else '+') :: e.digits

namespace Numeral

/-- The characters of a numeral. -/
def print (n : Numeral) : List Char :=
  (if n.negative then ['-'] else []) ++ n.whole ++
    (if n.fraction = [] then [] else '.' :: n.fraction) ++
    (match n.exponent with
      | none => []
      | some e => e.print)

/-- Spelled without a point and without an exponent. -/
def isInteger (n : Numeral) : Bool := n.fraction.isEmpty && n.exponent.isNone

/-- The number before the point. -/
def toInt (n : Numeral) : Int :=
  if n.negative then -(value n.whole : Int) else value n.whole

/-- The binary number nearest to the spelled one; `none` beyond the largest finite number. -/
def toBinary64? (n : Numeral) : Option Binary64 :=
  let scale : Int :=
    match n.exponent with
    | none => 0
    | some e => e.toInt
  Binary64.ofDecimal? n.negative (value (n.whole ++ n.fraction)) (scale - n.fraction.length)

def ofNat (n : Nat) : Numeral := ⟨false, digits n, [], none⟩

def ofInt (i : Int) : Numeral := ⟨decide (i < 0), digits i.natAbs, [], none⟩

end Numeral

/-- Where a decimal is written without an exponent: the exponents of its leading digit for which
the point is placed among, before or behind the digits. -/
structure Layout where
  lowest : Int
  highest : Int

/-- Numbers from `0.00001` up to below `10 ^ 16` are written without an exponent. -/
def Layout.plain : Layout := ⟨-5, 15⟩

/-- A binary number in its shortest form. It always keeps a point or an exponent, so it is never
spelled like an integer. -/
def Numeral.ofBinary64 (layout : Layout) (x : Binary64) : Numeral :=
  if x.significand = 0 then ⟨x.negative, ['0'], ['0'], none⟩
  else
    let (coefficient, k) := shortest x
    let ds := digits coefficient
    let lead : Int := k + ds.length - 1
    if layout.lowest ≤ lead ∧ lead ≤ layout.highest then
      if lead < 0 then
        ⟨x.negative, ['0'], List.replicate (-lead - 1).toNat '0' ++ ds, none⟩
      else if 0 ≤ k then
        ⟨x.negative, ds ++ List.replicate k.toNat '0', ['0'], none⟩
      else
        ⟨x.negative, ds.take (lead.toNat + 1), ds.drop (lead.toNat + 1), none⟩
    else
      ⟨x.negative, ds.take 1, ds.drop 1, some ⟨decide (lead < 0), digits lead.natAbs⟩⟩

end BusinessRules.Decimal
