/-!
# Instants

A moment in Coordinated Universal Time and its text `YYYY-MM-DDTHH:MM:SSZ`. Years of more than four
digits and years before the year zero carry a sign. A moment within a leap second has a billion
nanoseconds or more and shows the second 60.
-/
namespace AddonLint

/-- Seconds since the start of 1970, and nanoseconds. -/
structure Instant where
  seconds : Int
  nanos : Nat
  deriving DecidableEq, Repr

namespace Instant

/-- A number in decimal with at least `width` digits. -/
def padded (width n : Nat) : String :=
  let digits := Nat.toDigits 10 n
  String.ofList (List.replicate (width - digits.length) '0' ++ digits)

def daySeconds : Int := 86400

/-- Year, month and day of a day counted from the start of 1970. A year begins with March here, so
that the leap day is its last day, and 400 years have 146097 days. -/
def date (day : Int) : Int × Nat × Nat :=
  let shifted := day + 719468
  let era := Int.fdiv shifted 146097
  let dayOfEra := (Int.fmod shifted 146097).toNat
  let yearOfEra := (dayOfEra - dayOfEra / 1460 + dayOfEra / 36524 - dayOfEra / 146096) / 365
  let dayOfYear := dayOfEra - (365 * yearOfEra + yearOfEra / 4 - yearOfEra / 100)
  let month := (5 * dayOfYear + 2) / 153
  let dayOfMonth := dayOfYear - (153 * month + 2) / 5 + 1
  let calendarMonth := if month < 10 then month + 3 else month - 9
  let year := era * 400 + yearOfEra + (if calendarMonth ≤ 2 then 1 else 0)
  (year, calendarMonth, dayOfMonth)

/-- A year has four digits, and a sign unless it lies between 0 and 9999. -/
def yearText (year : Int) : String :=
  if 0 ≤ year ∧ year ≤ 9999 then padded 4 year.toNat
  else (if year < 0 then "-" else "+") ++ padded 4 year.natAbs

def text (t : Instant) : String :=
  let (year, month, day) := date (Int.fdiv t.seconds daySeconds)
  let second := (Int.fmod t.seconds daySeconds).toNat
  let leap := if 1000000000 ≤ t.nanos then 1 else 0
  yearText year ++ "-" ++ padded 2 month ++ "-" ++ padded 2 day ++ "T" ++
    padded 2 (second / 3600) ++ ":" ++ padded 2 (second / 60 % 60) ++ ":" ++
    padded 2 (second % 60 + leap) ++ "Z"

end Instant

end AddonLint
