import BusinessRules.Decimal.Digits

/-!
# Timestamps

Points in time as text, as `serialize_timestamp` writes them: `2024-03-01T12:30:05.000000`, in
universal time.

* `Date`, `Date.ofDay` — a day of the Gregorian calendar, counted from 1970;
* `Instant` — seconds since 1970 and nanoseconds within the second;
* `Instant.print` — its text.
-/

namespace BusinessRules

/-- A day of the Gregorian calendar, which is extended to all years; year zero comes before year
one. -/
structure Date where
  year : Int
  month : Nat
  day : Nat
  deriving DecidableEq, Repr

/-- The date of a day counted from 1970-01-01. Years are taken to start in March, so that the leap
day is their last, and are grouped in cycles of 400 years or 146097 days. -/
def Date.ofDay (day : Int) : Date :=
  let shifted := day + 719468
  let cycle := Int.fdiv shifted 146097
  let dayOfCycle := (Int.fmod shifted 146097).toNat
  let yearOfCycle :=
    (dayOfCycle - dayOfCycle / 1460 + dayOfCycle / 36524 - dayOfCycle / 146096) / 365
  let dayOfYear := dayOfCycle - (365 * yearOfCycle + yearOfCycle / 4 - yearOfCycle / 100)
  let monthFromMarch := (5 * dayOfYear + 2) / 153
  let month := if monthFromMarch < 10 then monthFromMarch + 3 else monthFromMarch - 9
  let marchYear := cycle * 400 + yearOfCycle
  ⟨if month ≤ 2 then marchYear + 1 else marchYear, month,
    dayOfYear - (153 * monthFromMarch + 2) / 5 + 1⟩

example : Date.ofDay 0 = ⟨1970, 1, 1⟩ := by decide

example : Date.ofDay 19783 = ⟨2024, 3, 1⟩ := by decide

example : Date.ofDay (-719529) = ⟨-1, 12, 31⟩ := by decide

/-- A point in time. The nanoseconds of a leap second run from one thousand million up. -/
structure Instant where
  seconds : Int
  nanoseconds : Nat
  deriving DecidableEq, Repr

open Decimal (paddedDigits)

/-- A year of at least four digits; before year zero and from year 10000 on it carries its
sign. -/
def printYear (year : Int) : List Char :=
  let sign := if year < 0 then ['-'] else if 9999 < year then ['+'] else []
  sign ++ paddedDigits 4 year.natAbs

/-- Date and time of day with six places of a second, the rest cut off (`serialize_timestamp`). A
leap second is shown as second sixty. -/
def Instant.print (t : Instant) : String :=
  let date := Date.ofDay (Int.fdiv t.seconds 86400)
  let ofDay := (Int.fmod t.seconds 86400).toNat
  let second := ofDay % 60 + t.nanoseconds / 1000000000
  let micros := t.nanoseconds % 1000000000 / 1000
  String.ofList (printYear date.year ++ '-' :: paddedDigits 2 date.month ++
    '-' :: paddedDigits 2 date.day ++ 'T' :: paddedDigits 2 (ofDay / 3600) ++
    ':' :: paddedDigits 2 (ofDay / 60 % 60) ++ ':' :: paddedDigits 2 second ++
    '.' :: paddedDigits 6 micros)

end BusinessRules
