import AddonLint.Decimal.Binary64

/-!
# Shortest decimal text

A finite binary64 number is written with the fewest digits that read back as the same number, and
among those with the digits nearest to it. A style then places the point.
-/
namespace AddonLint

/-- A positive decimal number `digits * 10 ^ exponent`. -/
structure DecimalParts where
  digits : Nat
  exponent : Int
  deriving DecidableEq, Repr, Inhabited

namespace Binary64

/-- The place of the leading decimal digit of `units * 2 ^ scale`. -/
def leadingPlace (units : Nat) (scale : Int) : Int :=
  let magnified :=
    units * Nat.pow 10 340 * Nat.pow 2 scale.toNat / Nat.pow 2 (-scale).toNat
  ((Nat.toDigits 10 magnified).length : Int) - 341

/-- The nearest number with its last digit at place `place` that reads back as `x`, if any. -/
def nearestAt? (x : Binary64) (place : Int) : Option Nat :=
  let m := x.significand
  let units := 4 * m
  let scale := x.scale - 2
  let low := if x.fraction = 0 ∧ 1 < x.exponentField then units - 1 else units - 2
  let high := units + 2
  let grid := Nat.pow 10 place.toNat * Nat.pow 2 (-scale).toNat
  let unit := Nat.pow 10 (-place).toNat * Nat.pow 2 scale.toNat
  let readsBack (c : Nat) : Bool :=
    if m % 2 = 0 then low * unit ≤ c * grid ∧ c * grid ≤ high * unit
    else low * unit < c * grid ∧ c * grid < high * unit
  let below := units * unit / grid
  let fromBelow := units * unit - below * grid
  let fromAbove := (below + 1) * grid - units * unit
  if readsBack below && readsBack (below + 1) then
    some (if fromBelow < fromAbove then below else below + 1)
  else if readsBack below then some below
  else if readsBack (below + 1) then some (below + 1)
  else none

/-- Try ever finer places until a decimal number reads back. -/
def searchShortest (x : Binary64) (place : Int) : Nat → DecimalParts
  | 0 => ⟨0, 0⟩
  | fuel + 1 =>
    match x.nearestAt? place with
    | some digits => ⟨digits, place⟩
    | none => searchShortest x (place - 1) fuel

/-- Without the zeros at the end of the digits. -/
def dropZeros (digits : Nat) (exponent : Int) : Nat → DecimalParts
  | 0 => ⟨digits, exponent⟩
  | fuel + 1 =>
    if digits % 10 = 0 ∧ digits ≠ 0 then dropZeros (digits / 10) (exponent + 1) fuel
    else ⟨digits, exponent⟩

/-- The fewest digits that read back as `x`; seventeen always do. -/
def shortest (x : Binary64) : DecimalParts :=
  if x.significand = 0 then ⟨0, 0⟩
  else
    let found := searchShortest x (leadingPlace (4 * x.significand) (x.scale - 2)) 18
    dropZeros found.digits found.exponent 20

end Binary64

/-- How a floating-point number is laid out: without an exponent always, or only while its leading
digit stands between two places. -/
structure FloatStyle where
  positional : Int → Bool

namespace FloatStyle

def plain : FloatStyle := ⟨fun _ => true⟩

/-- An exponent below `0.00001` and from `10^16` on. -/
def compact : FloatStyle := ⟨fun places => -5 < places && places ≤ 16⟩

/-- The text of a positive decimal number. -/
def layOut (style : FloatStyle) (d : DecimalParts) : String :=
  let digits := Nat.toDigits 10 d.digits
  let places : Int := digits.length + d.exponent
  let chars :=
    if style.positional places then
      if 0 ≤ d.exponent then digits ++ List.replicate d.exponent.toNat '0' ++ ['.', '0']
      else if 0 < places then digits.take places.toNat ++ '.' :: digits.drop places.toNat
      else '0' :: '.' :: List.replicate (-places).toNat '0' ++ digits
    else
      let exponent := (toString (places - 1)).toList
      match digits with
      | [] => []
      | [digit] => digit :: 'e' :: exponent
      | first :: rest => first :: '.' :: rest ++ 'e' :: exponent
  String.ofList chars

def format (style : FloatStyle) (x : Binary64) : String :=
  if x.isNaN then "NaN"
  else
    let magnitude := if x.isFinite then style.layOut x.shortest else "inf"
    if x.isNegative then "-" ++ magnitude else magnitude

end FloatStyle

end AddonLint
