import AddonLint.Yaml.Scalar

/-!
# Tokens of a YAML text

The smallest parts of a YAML text, and the reading of anchors, tags and directives. Where blocks
start and end is told by tokens of their own.
-/
namespace AddonLint.Yaml

/-- A token. -/
inductive Token where
  | streamEnd
  | versionDirective (major minor : Nat)
  | tagDirective (handle expansion : String)
  | documentStart
  | documentEnd
  | blockSequenceStart
  | blockMappingStart
  | blockEnd
  | flowSequenceStart
  | flowSequenceEnd
  | flowMappingStart
  | flowMappingEnd
  | blockEntry
  | flowEntry
  | key
  | value
  | alias (name : String)
  | anchor (name : String)
  | tag (handle suffix : String)
  | scalar (text : String) (style : ScalarStyle)
  deriving DecidableEq, Repr

namespace Token

/-- The characters that may follow the name of an anchor besides the end of a word. -/
def endsAnchor (c : Char) : Bool := "?:,]\x7d%@`".toList.contains c

def readAnchor (input : Input) : Option (String × Input) :=
  let (name, rest) := input.word
  if name ≠ [] && (rest.atWordEnd || rest.next endsAnchor) then some (String.ofList name, rest)
  else none

/-- Characters of a tag or of the expansion of a tag handle. -/
def isTagChar (verbatim : Bool) (c : Char) : Bool :=
  isWordChar c || ";/?:@&=+$.%!~*\x27()".toList.contains c || (verbatim && ",[]".toList.contains c)

/-- The number of bytes of a character that starts with a given byte. -/
def encodedWidth? (byte : Nat) : Option Nat :=
  if byte < 0x80 then some 1
  else if byte / 32 = 6 then some 2
  else if byte / 16 = 14 then some 3
  else if byte / 8 = 30 then some 4
  else none

/-- A byte written as a percent sign and two hexadecimal digits. -/
def readEscapedByte : Input → Option (Nat × Input)
  | mark :: high :: low :: rest => do
    if mark.char ≠ '%' then none
    let high ← Text.hexValue? high.char
    let low ← Text.hexValue? low.char
    return (16 * high + low, rest)
  | _ => none

/-- The further bytes of a character. -/
def readFurtherBytes : (count : Nat) → (code : Nat) → Input → Option (Nat × Input)
  | 0, code, input => some (code, input)
  | count + 1, code, input => do
    let (byte, input) ← readEscapedByte input
    if byte / 64 ≠ 2 then none
    readFurtherBytes count (64 * code + byte % 64) input

/-- A character written as escaped bytes. -/
def readEscapedChar (input : Input) : Option (Char × Input) := do
  let (first, input) ← readEscapedByte input
  let width ← encodedWidth? first
  let lead := if width = 1 then first else first % Nat.pow 2 (7 - width)
  let (code, input) ← readFurtherBytes (width - 1) lead input
  return ((charOfCode? code).getD '\uFFFD', input)

def readTagChars (verbatim : Bool) : (fuel : Nat) → (text : List Char) → Input →
    Option (List Char × Input)
  | 0, _, _ => none
  | _ + 1, text, [] => some (text.reverse, [])
  | fuel + 1, text, s :: rest =>
    if !isTagChar verbatim s.char then some (text.reverse, s :: rest)
    else if s.char = '%' then do
      let (c, input) ← readEscapedChar (s :: rest)
      readTagChars verbatim fuel (c :: text) input
    else readTagChars verbatim fuel (s.char :: text) rest

/-- Characters of a tag behind what has already been read of it; together they are not empty. -/
def readTagText (verbatim : Bool) (before : List Char) (input : Input) :
    Option (List Char × Input) := do
  let (text, rest) ← readTagChars verbatim (input.length + 1) [] input
  if before = [] ∧ text = [] then none
  return (before ++ text, rest)

/-- A tag handle: a mark, a word and perhaps a second mark. -/
def readHandle (input : Input) : Option (List Char × Input) :=
  match input with
  | s :: rest =>
    if s.char ≠ '!' then none
    else
      let (name, rest) := Input.word rest
      if rest.startsWith '!' then some ('!' :: name ++ ['!'], rest.drop 1)
      else some ('!' :: name, rest)
  | [] => none

def isNamedHandle (handle : List Char) : Bool :=
  1 < handle.length && handle.getLast? = some '!'

/-- A tag between angle brackets whose opening has been read. -/
def readVerbatimTag (input : Input) : Option (Token × Input) := do
  let (text, rest) ← readTagText true [] input
  if !rest.startsWith '>' then none
  return (.tag "" (String.ofList text), rest.drop 1)

/-- A tag with a handle, or a local tag. A mark that stands alone is a tag of its own. -/
def readShortTag (input : Input) : Option (Token × Input) := do
  let (handle, rest) ← readHandle input
  if isNamedHandle handle then
    let (suffix, rest) ← readTagText false [] rest
    return (.tag (String.ofList handle) (String.ofList suffix), rest)
  else
    let (text, rest) ← readTagText false handle rest
    match text.drop 1 with
    | [] => return (.tag "" "!", rest)
    | suffix => return (.tag "!" (String.ofList suffix), rest)

/-- A tag. Inside a flow collection a comma may follow it. -/
def readTag (inFlow : Bool) (input : Input) : Option (Token × Input) := do
  let (token, rest) ←
    if Input.startsWith '<' (input.drop 1) then readVerbatimTag (input.drop 2)
    else readShortTag input
  if rest.atWordEnd || (inFlow && rest.startsWith ',') then return (token, rest)
  else none

/-- A number of at most nine digits. -/
def readVersionNumber (input : Input) : Option (Nat × Input) :=
  let isDigit (s : Spot) : Bool := '0' ≤ s.char && s.char ≤ '9'
  let digits := input.takeWhile isDigit
  if digits = [] ∨ 9 < digits.length then none
  else
    some (digits.foldl (fun n s => 10 * n + (s.char.toNat - 48)) 0, input.dropWhile isDigit)

def readVersion (input : Input) : Option (Token × Input) := do
  let (major, rest) ← readVersionNumber input.skipWhite
  if !rest.startsWith '.' then none
  let (minor, rest) ← readVersionNumber (rest.drop 1)
  return (.versionDirective major minor, rest)

def readTagDirective (input : Input) : Option (Token × Input) := do
  let (handle, rest) ← readHandle input.skipWhite
  if !isNamedHandle handle && handle ≠ ['!'] then none
  if !rest.next isWhite then none
  let (expansion, rest) ← readTagText true [] rest.skipWhite
  if !rest.atWordEnd then none
  return (.tagDirective (String.ofList handle) (String.ofList expansion), rest)

/-- A directive whose mark has been read, with the rest of its line. -/
def readDirective (input : Input) : Option (Token × Input) := do
  let (name, rest) := input.word
  if !rest.atWordEnd then none
  let (token, rest) ←
    if name = "YAML".toList then readVersion rest
    else if name = "TAG".toList then readTagDirective rest
    else none
  let rest := rest.skipWhite.skipComment
  if !rest.atLineEnd then none
  return (token, rest.drop 1)

end Token

end AddonLint.Yaml
