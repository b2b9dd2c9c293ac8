/-!
# Durations

Lengths of time and their text in the largest fitting unit, without zeros at the end.
-/
namespace AddonLint

/-- Whole seconds and nanoseconds below a billion. -/
structure Duration where
  seconds : Nat
  nanos : Nat
  deriving DecidableEq, Repr

namespace Duration

/-- The duration of some seconds and any number of nanoseconds. -/
def ofParts (seconds nanos : Nat) : Duration :=
  ⟨seconds + nanos / 1000000000, nanos % 1000000000⟩

def ofSeconds (seconds : Nat) : Duration := ⟨seconds, 0⟩

/-- A decimal fraction with up to `places` places, without zeros at the end. -/
def fractionText (places n : Nat) : String :=
  let digits := Nat.toDigits 10 n
  let padded := List.replicate (places - digits.length) '0' ++ digits
  let kept := (padded.reverse.dropWhile (· = '0')).reverse
  if kept = [] then "" else String.ofList ('.' :: kept)

def text (d : Duration) : String :=
  if 0 < d.seconds then toString d.seconds ++ fractionText 9 d.nanos ++ "s"
  else if 1000000 ≤ d.nanos then
    toString (d.nanos / 1000000) ++ fractionText 6 (d.nanos % 1000000) ++ "ms"
  else if 1000 ≤ d.nanos then toString (d.nanos / 1000) ++ fractionText 3 (d.nanos % 1000) ++ "µs"
  else toString d.nanos ++ "ns"

end Duration

end AddonLint
