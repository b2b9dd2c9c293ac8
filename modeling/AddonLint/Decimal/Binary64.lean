/-!
# Binary floating point

A number of the IEEE 754 format binary64 is kept as its bits. A finite one stands for
`significand * 2 ^ scale`; a decimal numeral is read as the nearest such number, ties going to the
even significand.
-/
namespace AddonLint

/-- A binary64 number, given by its bits. -/
structure Binary64 where
  bits : UInt64
  deriving DecidableEq, Repr, Inhabited

namespace Binary64

/-- The least significand of a normal number, two to the power of fifty-two. -/
def normal : Nat := 0x10000000000000

def isNegative (x : Binary64) : Bool := x.bits ≥ 0x8000000000000000

def exponentField (x : Binary64) : Nat := x.bits.toNat / normal % 2048

def fraction (x : Binary64) : Nat := x.bits.toNat % normal

/-- Neither infinite nor a NaN. -/
def isFinite (x : Binary64) : Bool := x.exponentField ≠ 2047

/-- A NaN of any payload. -/
def isNaN (x : Binary64) : Bool := x.exponentField = 2047 ∧ x.fraction ≠ 0

/-- The integer significand of a finite number. -/
def significand (x : Binary64) : Nat :=
  if x.exponentField = 0 then x.fraction else normal + x.fraction

/-- The power of two that scales the significand. -/
def scale (x : Binary64) : Int := (max x.exponentField 1 : Nat) - 1075

def infinity (negative : Bool) : Binary64 :=
  ⟨if negative then 0xFFF0000000000000 else 0x7FF0000000000000⟩

/-- The quiet NaN. -/
def nan : Binary64 := ⟨0x7FF8000000000000⟩

/-- A quotient rounded to the nearest natural number, ties going to the even one. -/
def roundQuotient (num den : Nat) : Nat :=
  let q := num / den
  let r := num % den
  if 2 * r < den then q
  else if den < 2 * r then q + 1
  else if q % 2 = 0 then q else q + 1

/-- The magnitude bits of the number nearest to a positive quotient. -/
def magnitudeOfQuotient (num den : Nat) : Nat :=
  let estimate : Int := (Nat.log2 num : Int) - (Nat.log2 den : Int) - 52
  let scaled (e : Int) : Nat × Nat :=
    (num * Nat.pow 2 (-e).toNat, den * Nat.pow 2 e.toNat)
  let e := if (scaled estimate).1 < (scaled estimate).2 * normal then estimate - 1 else estimate
  let e := max e (-1074)
  let m := roundQuotient (scaled e).1 (scaled e).2
  let bits := if m < normal then m else (e + 1074).toNat * normal + m
  min bits (2047 * normal)

/-- A number of given magnitude bits and sign. -/
def ofMagnitude (negative : Bool) (magnitude : Nat) : Binary64 :=
  ⟨UInt64.ofNat (if negative then 0x8000000000000000 + magnitude else magnitude)⟩

/-- The number nearest to `digits * 10 ^ exponent`. -/
def ofDecimal (negative : Bool) (digits : Nat) (exponent : Int) : Binary64 :=
  let width : Int := (Nat.toDigits 10 digits).length
  if digits = 0 ∨ exponent + width < -400 then ofMagnitude negative 0
  else if 400 < exponent then infinity negative
  else ofMagnitude negative
    (magnitudeOfQuotient (digits * Nat.pow 10 exponent.toNat) (Nat.pow 10 (-exponent).toNat))

end Binary64

end AddonLint
