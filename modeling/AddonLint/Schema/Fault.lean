import AddonLint.Decimal.Shortest
import AddonLint.SemVer
import AddonLint.Text.Quoted

/-!
# Faults of typed documents

Why a document does not have the shape that was expected, and the wording of it. The two kinds of
documents, JSON values and YAML texts, name an absent value and lay out floating-point numbers
each in their own way.
-/
namespace AddonLint

/-- What was found where something else was expected. -/
inductive Finding where
  | nothing
  | flag (value : Bool)
  | integer (value : Int)
  | wideInteger (value : Int)
  | float (value : Binary64)
  | text (value : String)
  | sequence
  | map
  | tagged
  deriving DecidableEq, Repr

/-- A fault of a typed document. -/
inductive Fault where
  | wrongType (found : Finding) (expected : String)
  | wrongValue (found : Finding) (expected : String)
  | wrongLength (length : Nat) (expected : String)
  | missingField (name : String)
  | duplicateField (name : String)
  | unknownField (name : String) (known : List String)
  | unknownVariant (name : String) (known : List String)
  | badVersion (cause : SemVer.ParseError)
  | numberOutOfRange
  | taggedExtra
  deriving DecidableEq, Repr

/-- How a kind of document words what it found. -/
structure Wording where
  nothing : String
  floats : FloatStyle

namespace Wording

def json : Wording := ⟨"null", .compact⟩

def yaml : Wording := ⟨"unit value", .plain⟩

end Wording

def Finding.describe (w : Wording) : Finding → String
  | .nothing => w.nothing
  | .flag b => "boolean `" ++ (if b then "true" else "false") ++ "`"
  | .integer n => "integer `" ++ toString n ++ "`"
  | .wideInteger n =>
    "integer `" ++ toString n ++ "` as " ++ (if n < 0 then "i128" else "u128")
  | .float x => "floating point `" ++ w.floats.format x ++ "`"
  | .text s => "string " ++ Text.quoted s
  | .sequence => "sequence"
  | .map => "map"
  | .tagged => "enum"

/-- Alternatives, each between backquotes. -/
def alternatives : List String → String
  | [a] => "`" ++ a ++ "`"
  | [a, b] => "`" ++ a ++ "` or `" ++ b ++ "`"
  | names => "one of " ++ String.intercalate ", " (names.map fun n => "`" ++ n ++ "`")

def Fault.message (w : Wording) : Fault → String
  | .wrongType found expected =>
    "invalid type: " ++ found.describe w ++ ", expected " ++ expected
  | .wrongValue found expected =>
    "invalid value: " ++ found.describe w ++ ", expected " ++ expected
  | .wrongLength n expected => "invalid length " ++ toString n ++ ", expected " ++ expected
  | .missingField name => "missing field `" ++ name ++ "`"
  | .duplicateField name => "duplicate field `" ++ name ++ "`"
  | .unknownField name known =>
    "unknown field `" ++ name ++ "`, expected " ++ alternatives known
  | .unknownVariant name known =>
    "unknown variant `" ++ name ++ "`, expected " ++ alternatives known
  | .badVersion cause => cause.message
  | .numberOutOfRange => "JSON number out of range"
  | .taggedExtra => "untagged and internally tagged enums do not support enum input"

end AddonLint
