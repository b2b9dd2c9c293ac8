import AddonLint.Decimal.Binary64

/-!
# Numerals

Reading of whole numbers in a given base and of decimal fractions with an optional exponent.
-/
namespace AddonLint.Numeral

/-- The value of a digit or letter, the letters standing for ten and more. -/
def digitValue? (c : Char) : Option Nat :=
  let n := c.toNat
  if 48 ≤ n ∧ n ≤ 57 then some (n - 48)
  else if 97 ≤ n ∧ n ≤ 122 then some (n - 87)
  else if 65 ≤ n ∧ n ≤ 90 then some (n - 55)
  else none

/-- Go on reading digits of a base. -/
def naturalFrom (base : Nat) : List Char → Nat → Option Nat
  | [], n => some n
  | c :: cs, n =>
    match digitValue? c with
    | some d => if d < base then naturalFrom base cs (base * n + d) else none
    | none => none

/-- A non-empty run of digits of a base, and nothing else. -/
def natural? (base : Nat) (cs : List Char) : Option Nat :=
  if cs = [] then none else naturalFrom base cs 0

/-- Digits with an optional plus sign, no larger than `bound`. -/
def unsigned? (bound base : Nat) (cs : List Char) : Option Nat :=
  let digits := match cs with
    | '+' :: rest => rest
    | _ => cs
  (natural? base digits).filter (· ≤ bound)

/-- Digits with an optional sign, in the range of a two's complement number of magnitude
`bound + 1`. -/
def signed? (bound base : Nat) (cs : List Char) : Option Int :=
  match cs with
  | '-' :: rest => (natural? base rest).bind fun n =>
    if n ≤ bound + 1 then some (-(n : Int)) else none
  | _ => (unsigned? bound base cs).map Int.ofNat

def maxUnsigned64 : Nat := UInt64.size - 1

def maxSigned64 : Nat := UInt64.size / 2 - 1

def maxUnsigned128 : Nat := UInt64.size * UInt64.size - 1

def maxSigned128 : Nat := UInt64.size * UInt64.size / 2 - 1

def unsigned64? (s : String) : Option UInt64 :=
  (unsigned? maxUnsigned64 10 s.toList).map UInt64.ofNat

def isDigit (c : Char) : Bool := '0' ≤ c && c ≤ '9'

/-- An exponent mark with its number, or nothing at all. -/
def exponent? : List Char → Option Int
  | [] => some 0
  | c :: rest =>
    if c = 'e' ∨ c = 'E' then
      match rest with
      | '-' :: digits => (natural? 10 digits).map fun n => -(n : Int)
      | '+' :: digits => (natural? 10 digits).map Int.ofNat
      | digits => (natural? 10 digits).map Int.ofNat
    else none

/-- A decimal fraction without a sign: digits with a point somewhere among them or at either end,
and then an optional exponent. -/
def fraction? (negative : Bool) (cs : List Char) : Option Binary64 :=
  let whole := cs.takeWhile isDigit
  let afterWhole := cs.dropWhile isDigit
  let (decimals, tail) := match afterWhole with
    | '.' :: rest => (rest.takeWhile isDigit, rest.dropWhile isDigit)
    | _ => ([], afterWhole)
  if whole = [] ∧ decimals = [] then none
  else
    match naturalFrom 10 (whole ++ decimals) 0, exponent? tail with
    | some digits, some e => some (Binary64.ofDecimal negative digits (e - decimals.length))
    | _, _ => none

/-- A decimal fraction with an optional sign. -/
def float? : List Char → Option Binary64
  | '-' :: cs => fraction? true cs
  | '+' :: cs => fraction? false cs
  | cs => fraction? false cs

end AddonLint.Numeral
