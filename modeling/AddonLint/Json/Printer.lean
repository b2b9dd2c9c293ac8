import AddonLint.Json.Basic
import AddonLint.Decimal.Shortest
import AddonLint.Text.Hex

/-!
# Indented JSON text

Every member and item stands on its own line, two spaces deeper than what contains it; an empty
object or list stays on one line. Strings escape what JSON demands and nothing else.
-/
namespace AddonLint.Json

def escapeChar (c : Char) : List Char :=
  if c = '\x22' then ['\\', '\x22']
  else if c = '\\' then ['\\', '\\']
  else if c = '\n' then ['\\', 'n']
  else if c = '\r' then ['\\', 'r']
  else if c = '\t' then ['\\', 't']
  else if c.toNat = 8 then ['\\', 'b']
  else if c.toNat = 12 then ['\\', 'f']
  else if c.toNat < 32 then ['\\', 'u'] ++ Text.hexPadded 4 c.toNat
  else [c]

def stringText (s : String) : String :=
  String.ofList ('\x22' :: s.toList.flatMap escapeChar ++ ['\x22'])

def intText (n : Int) : String := toString n

/-- A line break and the indentation of a depth. -/
def newline (depth : Nat) : String := String.ofList ('\n' :: List.replicate (2 * depth) ' ')

/-- Written items between brackets, one on a line. -/
def bracket (opening closing : String) (depth : Nat) : List String → String
  | [] => opening ++ closing
  | items =>
    opening ++ newline (depth + 1) ++ String.intercalate ("," ++ newline (depth + 1)) items ++
      newline depth ++ closing

mutual

/-- A value at a depth of indentation. -/
def prettyAt (depth : Nat) : Json → String
  | .null => "null"
  | .bool true => "true"
  | .bool false => "false"
  | .int n => intText n
  | .float x => FloatStyle.compact.format x
  | .str s => stringText s
  | .arr items => bracket "[" "]" depth (prettyItems (depth + 1) items)
  | .obj members => bracket "\x7b" "\x7d" depth (prettyMembers (depth + 1) members)

def prettyItems (depth : Nat) : List Json → List String
  | [] => []
  | item :: rest => prettyAt depth item :: prettyItems depth rest

/-- The members of an object, each with its name. -/
def prettyMembers (depth : Nat) : List (String × Json) → List String
  | [] => []
  | (name, value) :: rest =>
    (stringText name ++ ": " ++ prettyAt depth value) :: prettyMembers depth rest

end

/-- The indented text of a value. -/
def pretty (value : Json) : String := prettyAt 0 value

end AddonLint.Json
