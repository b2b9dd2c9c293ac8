import AddonLint.Decimal.Numeral
import AddonLint.Schema.Fault
import AddonLint.Yaml.Scalar

/-!
# Meaning of scalars

What a scalar stands for where nothing particular is expected. Plain scalars may be null, booleans
and numbers; a tag of the core schema demands one kind; every other scalar is text.
-/
namespace AddonLint.Yaml

/-- The words for null; an empty plain scalar is null as well. -/
def isNullWord (s : String) : Bool := s = "null" || s = "Null" || s = "NULL" || s = "~"

def boolean? (s : String) : Option Bool :=
  if s = "true" ∨ s = "True" ∨ s = "TRUE" then some true
  else if s = "false" ∨ s = "False" ∨ s = "FALSE" then some false
  else none

def withoutPlus : List Char → List Char
  | '+' :: cs => cs
  | cs => cs

def isSigned : List Char → Bool
  | c :: _ => c = '+' || c = '-'
  | [] => false

/-- Digits with a leading zero, which make no number; they may have a sign. -/
def isZeroPadded (cs : List Char) : Bool :=
  let digits := if isSigned cs then cs.drop 1 else cs
  match digits with
  | '0' :: rest => rest ≠ [] && rest.all Numeral.isDigit
  | _ => false

/-- The base of a letter behind a leading zero. -/
def base? (c : Char) : Option Nat :=
  if c = 'x' then some 16 else if c = 'o' then some 8 else if c = 'b' then some 2 else none

/-- A natural number no larger than `bound`, in decimal or with a mark for its base. -/
def unsigned? (bound : Nat) (s : String) : Option Nat :=
  let cs := withoutPlus s.toList
  let based : Option (List Char × Nat) := match cs with
    | '0' :: c :: rest => (base? c).map fun base => (rest, base)
    | _ => none
  match based with
  | some (digits, base) => if isSigned digits then none else Numeral.unsigned? bound base digits
  | none =>
    if isSigned cs || isZeroPadded s.toList then none else Numeral.unsigned? bound 10 cs

/-- A number with a minus sign that is no less than `-(bound + 1)`. -/
def negative? (bound : Nat) (s : String) : Option Int :=
  match s.toList with
  | '-' :: cs =>
    let based : Option (List Char × Nat) := match cs with
      | '0' :: c :: rest => (base? c).map fun base => (rest, base)
      | _ => none
    match based with
    | some (digits, base) => Numeral.signed? bound base ('-' :: digits)
    | none => if isZeroPadded s.toList then none else Numeral.signed? bound 10 ('-' :: cs)
  | _ => none

/-- A whole number: of 64 bits, or else of 128 bits. -/
def integer? (s : String) : Option Finding :=
  match unsigned? Numeral.maxUnsigned64 s, negative? Numeral.maxSigned64 s with
  | some n, _ => some (.integer n)
  | none, some n => some (.integer n)
  | none, none =>
    match unsigned? Numeral.maxUnsigned128 s, negative? Numeral.maxSigned128 s with
    | some n, _ => some (.wideInteger n)
    | none, some n => some (.wideInteger n)
    | none, none => none

def infinityWords : List String := [".inf", ".Inf", ".INF"]

def nanWords : List String := [".nan", ".NaN", ".NAN"]

def float? (s : String) : Option Binary64 :=
  let cs := withoutPlus s.toList
  if cs ≠ s.toList && isSigned cs then none
  else if infinityWords.contains (String.ofList cs) then some (.infinity false)
  else if s.toList.head? = some '-' && infinityWords.contains (String.ofList (s.toList.drop 1)) then
    some (.infinity true)
  else if nanWords.contains s then some .nan
  else (Numeral.float? cs).filter Binary64.isFinite

/-- What a plain scalar without a tag stands for. -/
def plainMeaning (s : String) : Finding :=
  if s = "" || isNullWord s then .nothing
  else
    match boolean? s, integer? s with
    | some b, _ => .flag b
    | none, some n => n
    | none, none =>
      if isZeroPadded s.toList then .text s
      else
        match float? s with
        | some x => .float x
        | none => .text s

/-- The tags of the core schema that demand a kind. -/
inductive CoreTag where
  | null
  | boolean
  | integer
  | float
  deriving DecidableEq, Repr

namespace CoreTag

/-- What all tags of the core schema start with. -/
def space : String := "tag:yaml.org,2002:"

/-- The kind that a tag demands. -/
def ofTag? (tag : String) : Option CoreTag :=
  if tag = space ++ "null" then some .null
  else if tag = space ++ "bool" then some .boolean
  else if tag = space ++ "int" then some .integer
  else if tag = space ++ "float" then some .float
  else none

def expected : CoreTag → String
  | .null => "null"
  | .boolean => "a boolean"
  | .integer => "an integer"
  | .float => "a float"

/-- What a text stands for as a value of a kind. -/
def meaning? : CoreTag → String → Option Finding
  | .null, s => if isNullWord s then some .nothing else none
  | .boolean, s => (boolean? s).map .flag
  | .integer, s => integer? s
  | .float, s => (float? s).map .float

end CoreTag

/-- Whether a tag is local to the program that reads the document. -/
def isLocalTag (tag : Option String) : Bool :=
  match tag with
  | some t => t.toList.head? = some '!'
  | none => false

/-- What a scalar stands for. -/
def meaning (tag : Option String) (text : String) (style : ScalarStyle) : Except Fault Finding :=
  match tag with
  | none => .ok (if style = .plain then plainMeaning text else .text text)
  | some t =>
    match CoreTag.ofTag? t with
    | some core =>
      match core.meaning? text with
      | some found => .ok found
      | none => .error (.wrongValue (.text text) core.expected)
    | none =>
      .ok (if isLocalTag tag && style = .plain then plainMeaning text else .text text)

end AddonLint.Yaml
