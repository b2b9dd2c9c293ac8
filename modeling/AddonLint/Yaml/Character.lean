/-!
# Characters of a YAML text

A text is read as a list of placed characters. Line breaks of one or two characters are all read as
a line feed; the line and paragraph separators stay what they are and also end a line.
-/
namespace AddonLint.Yaml

/-- A character and its place, counted from zero. -/
structure Spot where
  char : Char
  line : Nat
  column : Nat
  deriving Repr

/-- What is still to be read. -/
abbrev Input := List Spot

/-- A line and a column. -/
structure Place where
  line : Nat
  column : Nat
  deriving DecidableEq, Repr

def isBreak (c : Char) : Bool := c = '\n' || c = '\u2028' || c = '\u2029'

def isWhite (c : Char) : Bool := c = ' ' || c = '\t'

/-- Letters, digits, hyphens and underscores of ASCII. -/
def isWordChar (c : Char) : Bool :=
  ('0' ≤ c && c ≤ '9') || ('a' ≤ c && c ≤ 'z') || ('A' ≤ c && c ≤ 'Z') || c = '_' || c = '-'

/-- Characters that may stand in a text at all. -/
def isAllowed (c : Char) : Bool :=
  let n := c.toNat
  n = 9 || n = 10 || n = 13 || (0x20 ≤ n && n ≤ 0x7E) || n = 0x85 || (0xA0 ≤ n && n ≤ 0xFFFD) ||
    0x10000 ≤ n

/-- The mark that may stand at the start of a text, where it takes a column like any character. -/
def byteOrderMark : Char := '\uFEFF'

/-- Line breaks as line feeds. -/
def unifyBreaks : List Char → List Char
  | [] => []
  | '\x0d' :: '\n' :: cs => '\n' :: unifyBreaks cs
  | c :: cs => (if c = '\x0d' ∨ c.toNat = 0x85 then '\n' else c) :: unifyBreaks cs

/-- Characters with their places from a line and column on. -/
def placeFrom (line column : Nat) : List Char → Input
  | [] => []
  | c :: cs =>
    ⟨c, line, column⟩ ::
      if isBreak c then placeFrom (line + 1) 0 cs else placeFrom line (column + 1) cs

namespace Input

/-- The placed characters of a text, unless one of them is not allowed. -/
def ofChars? (cs : List Char) : Option Input :=
  if cs.all isAllowed then some (placeFrom 0 0 (unifyBreaks cs)) else none

def startsWith (c : Char) : Input → Bool
  | s :: _ => s.char = c
  | [] => false

def next (p : Char → Bool) : Input → Bool
  | s :: _ => p s.char
  | [] => false

/-- Whether a word ends here: at white space, at a line break or at the end of the text. -/
def atWordEnd : Input → Bool
  | s :: _ => isWhite s.char || isBreak s.char
  | [] => true

/-- Whether a line ends here. -/
def atLineEnd : Input → Bool
  | s :: _ => isBreak s.char
  | [] => true

/-- The rest of the line, and what follows. -/
def line (input : Input) : List Char × Input :=
  ((input.takeWhile fun s => !isBreak s.char).map (·.char),
    input.dropWhile fun s => !isBreak s.char)

def finish (input : Input) : Place :=
  match input.getLast? with
  | some s => if isBreak s.char then ⟨s.line + 1, 0⟩ else ⟨s.line, s.column + 1⟩
  | none => ⟨0, 0⟩

def skipWhite (input : Input) : Input := input.dropWhile fun s => isWhite s.char

/-- Without a comment that starts here. -/
def skipComment (input : Input) : Input :=
  if input.startsWith '#' then input.line.2 else input

/-- A word of letters and digits, and what follows it. -/
def word (input : Input) : List Char × Input :=
  ((input.takeWhile fun s => isWordChar s.char).map (·.char),
    input.dropWhile fun s => isWordChar s.char)

/-- Whether three equal marks stand alone at the start of a line. -/
def atTripleMark (mark : Char) : Input → Bool
  | a :: b :: c :: rest =>
    a.column = 0 && a.char = mark && b.char = mark && c.char = mark && atWordEnd rest
  | _ => false

/-- Whether a document starts or ends here with a mark of its own. -/
def atDocumentMark (input : Input) : Bool := input.atTripleMark '-' || input.atTripleMark '.'

end Input

end AddonLint.Yaml
