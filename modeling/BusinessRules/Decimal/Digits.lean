/-!
# Decimal digits

Natural numbers as lists of the digits `0` … `9`, most significant first:

* `digits` — the digits of a number, without leading zeros;
* `value` — the number that a list of digits spells, leading zeros allowed;
* `paddedDigits` — at least so many digits;
* `ofNat`, `ofInt` — the same as text;
* `twoTo`, `tenTo` — powers of two and ten.

Principal results: `value_digits` (a number is what its digits spell) and `isDigit_of_mem_digits`.
-/

namespace BusinessRules.Decimal

def twoTo (n : Nat) : Nat := Nat.pow 2 n

def tenTo (n : Nat) : Nat := Nat.pow 10 n

/-- The character of a digit below ten. -/
def digitChar (d : Nat) : Char := Char.ofNat (48 + d)

/-- The number that a digit stands for. -/
def digitValue (c : Char) : Nat := c.toNat - 48

theorem digitValue_digitChar : ∀ {d : Nat}, d < 10 → digitValue (digitChar d) = d := by decide

theorem isDigit_digitChar : ∀ {d : Nat}, d < 10 → (digitChar d).isDigit = true := by decide

/-- The digits of a number in front of a list of characters. -/
def digitsOnto (n : Nat) (rest : List Char) : List Char :=
  if n < 10 then digitChar n :: rest else digitsOnto (n / 10) (digitChar (n % 10) :: rest)
termination_by n
decreasing_by omega

/-- The digits of a number, most significant first; zero has one digit. -/
def digits (n : Nat) : List Char := digitsOnto n []

/-- The number that a list of digits spells. -/
def value (cs : List Char) : Nat := cs.foldl (fun n c => 10 * n + digitValue c) 0

theorem foldl_digitsOnto (n : Nat) (rest : List Char) :
    (digitsOnto n rest).foldl (fun n c => 10 * n + digitValue c) 0 =
      rest.foldl (fun n c => 10 * n + digitValue c) n := by
  fun_induction digitsOnto n rest with
  | case1 n rest h => simp [digitValue_digitChar h]
  | case2 n rest h ih =>
    rw [ih, List.foldl_cons, digitValue_digitChar (Nat.mod_lt _ (by omega)), Nat.div_add_mod]

theorem value_digits (n : Nat) : value (digits n) = n := foldl_digitsOnto n []

theorem isDigit_of_mem_digitsOnto {n : Nat} {rest : List Char}
    (hrest : ∀ c ∈ rest, c.isDigit = true) : ∀ c ∈ digitsOnto n rest, c.isDigit = true := by
  fun_induction digitsOnto n rest with
  | case1 n rest h => simpa [isDigit_digitChar h] using hrest
  | case2 n rest h ih => exact ih (by simpa [isDigit_digitChar (Nat.mod_lt n (by omega : 10 > 0))])

theorem isDigit_of_mem_digits {n : Nat} : ∀ c ∈ digits n, c.isDigit = true :=
  isDigit_of_mem_digitsOnto (by simp)

/-- The digits of a number, with zeros in front up to the width. -/
def paddedDigits (width n : Nat) : List Char :=
  List.replicate (width - (digits n).length) '0' ++ digits n

def ofNat (n : Nat) : String := String.ofList (digits n)

/-- An integer as decimal text, with a minus sign below zero. -/
def ofInt (i : Int) : String := if i < 0 then "-" ++ ofNat i.natAbs else ofNat i.natAbs

end BusinessRules.Decimal
