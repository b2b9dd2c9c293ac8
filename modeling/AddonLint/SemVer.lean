import AddonLint.Decimal.Numeral
import AddonLint.Text.Fields
import AddonLint.Text.Quoted

/-!
# Semantic versions

Versions `MAJOR.MINOR.PATCH` with 64-bit numbers, an optional pre-release part after `-` and
optional build metadata after `+`. Reading stops at the first fault and names the part in which
it lies.
-/
namespace AddonLint

/-- A semantic version; an absent pre-release or build part is empty. -/
structure SemVer where
  major : UInt64
  minor : UInt64
  patch : UInt64
  pre : String
  build : String
  deriving DecidableEq, Repr, Inhabited

namespace SemVer

/-- The parts of a version text. -/
inductive Part where
  | major
  | minor
  | patch
  | pre
  | build
  deriving DecidableEq, Repr

def Part.label : Part → String
  | .major => "major version number"
  | .minor => "minor version number"
  | .patch => "patch version number"
  | .pre => "pre-release identifier"
  | .build => "build metadata"

/-- Why a text is no version. -/
inductive ParseError where
  | empty
  | unexpectedEnd (part : Part)
  | unexpectedChar (part : Part) (found : Char)
  | unexpectedCharAfter (part : Part) (found : Char)
  | leadingZero (part : Part)
  | overflow (part : Part)
  | emptySegment (part : Part)
  deriving DecidableEq, Repr

def ParseError.message : ParseError → String
  | .empty => "empty string, expected a semver version"
  | .unexpectedEnd part => "unexpected end of input while parsing " ++ part.label
  | .unexpectedChar part c =>
    "unexpected character " ++ Text.quotedChar c ++ " while parsing " ++ part.label
  | .unexpectedCharAfter part c =>
    "unexpected character " ++ Text.quotedChar c ++ " after " ++ part.label
  | .leadingZero part => "invalid leading zero in " ++ part.label
  | .overflow part => "value of " ++ part.label ++ " exceeds u64::MAX"
  | .emptySegment part => "empty identifier segment in " ++ part.label

/-- A run of digits without leading zeros that fits 64 bits, and what follows it. -/
def number (part : Part) (cs : List Char) : Except ParseError (UInt64 × List Char) :=
  let digits := cs.takeWhile Numeral.isDigit
  let rest := cs.dropWhile Numeral.isDigit
  match digits with
  | [] =>
    match rest with
    | [] => .error (.unexpectedEnd part)
    | c :: _ => .error (.unexpectedChar part c)
  | d :: more =>
    if d = '0' ∧ more ≠ [] then .error (.leadingZero part)
    else
      match (Numeral.natural? 10 digits).filter (· ≤ Numeral.maxUnsigned64) with
      | some n => .ok (UInt64.ofNat n, rest)
      | none => .error (.overflow part)

def afterPoint (part : Part) : List Char → Except ParseError (List Char)
  | [] => .error (.unexpectedEnd part)
  | c :: rest => if c = '.' then .ok rest else .error (.unexpectedCharAfter part c)

def isIdentifierChar (c : Char) : Bool :=
  Numeral.isDigit c || ('a' ≤ c && c ≤ 'z') || ('A' ≤ c && c ≤ 'Z') || c == '-'

/-- The first fault of the dot-separated segments of an identifier. -/
def segmentFault? (part : Part) : List (List Char) → Option ParseError
  | [] => none
  | segment :: rest =>
    if segment = [] then some (.emptySegment part)
    else if part = .pre ∧ segment.all Numeral.isDigit ∧ 1 < segment.length ∧
        segment.head? = some '0' then
      some (.leadingZero part)
    else segmentFault? part rest

/-- A non-empty dot-separated identifier, and what follows it. -/
def identifier (part : Part) (cs : List Char) : Except ParseError (List Char × List Char) :=
  let inIdentifier (c : Char) : Bool := isIdentifierChar c || c == '.'
  let name := cs.takeWhile inIdentifier
  match segmentFault? part (Text.cutAt '.' name) with
  | some fault => .error fault
  | none => .ok (name, cs.dropWhile inIdentifier)

/-- An identifier behind its mark; without the mark there is none. -/
def optionalIdentifier (mark : Char) (part : Part) :
    List Char → Except ParseError (Option (List Char) × List Char)
  | [] => .ok (none, [])
  | c :: cs =>
    if c = mark then (identifier part cs).map fun (name, rest) => (some name, rest)
    else .ok (none, c :: cs)

def parseChars (cs : List Char) : Except ParseError SemVer := do
  if cs = [] then throw .empty
  let (major, rest) ← number .major cs
  let rest ← afterPoint .major rest
  let (minor, rest) ← number .minor rest
  let rest ← afterPoint .minor rest
  let (patch, rest) ← number .patch rest
  let (pre, rest) ← optionalIdentifier '-' .pre rest
  let (build, rest) ← optionalIdentifier '+' .build rest
  match rest with
  | [] =>
    return ⟨major, minor, patch, String.ofList (pre.getD []), String.ofList (build.getD [])⟩
  | c :: _ =>
    let last := if build.isSome then .build else if pre.isSome then .pre else .patch
    throw (.unexpectedCharAfter last c)

/-- Read a version. -/
def parse (s : String) : Except ParseError SemVer := parseChars s.toList

/-- Neither a pre-release nor a build part. -/
def isPlain (v : SemVer) : Bool := v.pre.isEmpty && v.build.isEmpty

/-- Read `MAJOR.MINOR.PATCH` with nothing after it. -/
def parsePlain? (s : String) : Option SemVer :=
  match parse s with
  | .ok v => if v.isPlain then some v else none
  | .error _ => none

def ofNumbers (major minor patch : UInt64) : SemVer := ⟨major, minor, patch, "", ""⟩

def numbersText (v : SemVer) : String :=
  toString v.major.toNat ++ "." ++ toString v.minor.toNat ++ "." ++ toString v.patch.toNat

def text (v : SemVer) : String :=
  v.numbersText ++ (if v.pre.isEmpty then "" else "-" ++ v.pre) ++
    (if v.build.isEmpty then "" else "+" ++ v.build)

/-- Numeric order by major, minor and patch number. -/
def precedes (v w : SemVer) : Bool :=
  if v.major ≠ w.major then v.major < w.major
  else if v.minor ≠ w.minor then v.minor < w.minor
  else v.patch < w.patch

/-- The greatest of a list of plain versions. -/
def greatest? : List SemVer → Option SemVer
  | [] => none
  | v :: rest =>
    match greatest? rest with
    | none => some v
    | some w => some (if w.precedes v then v else w)

end SemVer

end AddonLint
