import AddonLint.Text.Hex
import AddonLint.Yaml.Character

/-!
# Written scalars

Reading of the texts of scalars in their styles: plain, between quotes of either kind, and as
indented blocks. Line breaks inside a plain or quoted text are folded: a single one becomes a
space, and further ones stay.
-/
namespace AddonLint.Yaml

/-- How a scalar is written. -/
inductive ScalarStyle where
  | plain
  | quoted
  | literal
  | folded
  deriving DecidableEq, Repr

/-- White space and line breaks between two parts of a text. The white space counts only if there
is no line break; it is kept with the last character in front. -/
structure Gap where
  white : List Char
  broken : Bool
  first : Option Char
  more : List Char

namespace Gap

def none : Gap := ⟨[], false, Option.none, []⟩

/-- A line break that leaves no trace. -/
def escapedBreak : Gap := ⟨[], true, Option.none, []⟩

/-- What a gap contributes to the text. -/
def text (g : Gap) : List Char :=
  if !g.broken then g.white.reverse
  else
    match g.first with
    | some c => if c = '\n' then (if g.more = [] then [' '] else g.more) else c :: g.more
    | Option.none => g.more

def add (g : Gap) (c : Char) : Gap :=
  if isBreak c then
    if g.broken then { g with more := g.more ++ [c] } else { g with broken := true, first := c }
  else if g.broken then g
  else { g with white := c :: g.white }

/-- Take in the white space and line breaks in front of the input. A tab to the left of `margin`
on a further line is an error. -/
def extend (margin : Nat) (g : Gap) : Input → Option (Gap × Input)
  | [] => some (g, [])
  | s :: rest =>
    if isWhite s.char || isBreak s.char then
      if s.char = '\t' && g.broken && s.column < margin then Option.none
      else extend margin (g.add s.char) rest
    else some (g, s :: rest)

end Gap

def hexNumber? (input : Input) : Option Nat :=
  input.foldlM (fun n s => (Text.hexValue? s.char).map fun d => 16 * n + d) 0

/-- The character of a code point, unless it is no character. -/
def charOfCode? (n : Nat) : Option Char :=
  if n < 0xD800 ∨ (0xDFFF < n ∧ n < 0x110000) then some (Char.ofNat n) else none

/-- Escapes of one character in double quotes. -/
def escapes : List (Char × Char) := [
  ('0', '\x00'), ('a', '\x07'), ('b', '\x08'), ('t', '\t'), ('\t', '\t'), ('n', '\n'),
  ('v', '\x0b'), ('f', '\x0c'), ('r', '\x0d'), ('e', '\x1b'), (' ', ' '), ('\x22', '\x22'),
  ('/', '/'), ('\\', '\\'), ('N', '\u0085'), ('_', '\u00a0'), ('L', '\u2028'), ('P', '\u2029')]

/-- Escapes that are followed by a number of hexadecimal digits. -/
def codeEscapes : List (Char × Nat) := [('x', 2), ('u', 4), ('U', 8)]

/-- The character of an escape whose backslash has been read, and what follows. -/
def readEscape : Input → Option (Char × Input)
  | [] => none
  | s :: rest =>
    match escapes.lookup s.char, codeEscapes.lookup s.char with
    | some c, _ => some (c, rest)
    | none, some width => do
      let digits := rest.take width
      if digits.length < width then none
      let c ← charOfCode? (← hexNumber? digits)
      return (c, rest.drop width)
    | none, none => none

/-- Read a text up to its closing quote; `text` is what has been read, the last character first.
No document may start or end within it. -/
def readQuoted (quote : Char) : (fuel : Nat) → (text : List Char) → Input →
    Option (List Char × Input)
  | 0, _, _ => none
  | _ + 1, _, [] => none
  | fuel + 1, text, s :: rest =>
    let afterGap (gap : Gap) (input : Input) : Option (List Char × Input) := do
      let (gap, input) ← gap.extend 0 input
      if input.atDocumentMark then none
      readQuoted quote fuel (gap.text.reverse ++ text) input
    if isWhite s.char || isBreak s.char then afterGap .none (s :: rest)
    else if s.char = quote then
      if quote = '\x27' && Input.startsWith quote rest then
        readQuoted quote fuel (quote :: text) (rest.drop 1)
      else some (text.reverse, rest)
    else if quote = '\x22' && s.char = '\\' then
      if Input.next isBreak rest then afterGap .escapedBreak (rest.drop 1)
      else
        match readEscape rest with
        | some (c, rest) => readQuoted quote fuel (c :: text) rest
        | none => none
    else readQuoted quote fuel (s.char :: text) rest

/-- Brackets and commas of flow collections. -/
def isFlowMark (c : Char) : Bool := c = ',' || c = '[' || c = ']' || c = '\x7b' || c = '\x7d'

/-- Read a plain text. A gap is kept until a further character follows it; whether the last gap
holds a line break is part of the answer. In a block, further lines are indented to `margin`. -/
def readPlain (inFlow : Bool) (margin : Nat) : (fuel : Nat) → (fresh : Bool) →
    (text : List Char) → Gap → Input → Option (List Char × Bool × Input)
  | 0, _, text, gap, input => some (text.reverse, gap.broken, input)
  | _ + 1, _, text, gap, [] => some (text.reverse, gap.broken, [])
  | fuel + 1, fresh, text, gap, s :: rest =>
    let stop : Option (List Char × Bool × Input) := some (text.reverse, gap.broken, s :: rest)
    if isWhite s.char || isBreak s.char then do
      let (gap, input) ← Gap.none.extend margin (s :: rest)
      let indented := inFlow || match input with
        | next :: _ => margin ≤ next.column
        | [] => false
      if indented then readPlain inFlow margin fuel true text gap input
      else return (text.reverse, gap.broken, input)
    else if fresh && (s.char = '#' || Input.atDocumentMark (s :: rest)) then stop
    else if inFlow && s.char = ':' && Input.next (fun c => isFlowMark c || c = '?') rest then none
    else if s.char = ':' && Input.atWordEnd rest then stop
    else if inFlow && isFlowMark s.char then stop
    else readPlain inFlow margin fuel false (s.char :: (gap.text.reverse ++ text)) .none rest

/-- What is done with the line breaks at the end of a block. -/
inductive Chomping where
  | strip
  | clip
  | keep
  deriving DecidableEq, Repr

def chomping? : Input → Option (Chomping × Input)
  | s :: rest =>
    if s.char = '+' then some (.keep, rest)
    else if s.char = '-' then some (.strip, rest)
    else none
  | [] => none

/-- An indentation given in a header; zero is an error. -/
def indentation? : Input → Option (Option Nat × Input)
  | s :: rest =>
    if s.char = '0' then none
    else if '1' ≤ s.char ∧ s.char ≤ '9' then some (some (s.char.toNat - 48), rest)
    else some (none, s :: rest)
  | [] => some (none, [])

/-- The header of a block: its chomping and its indentation, in either order. -/
def readHeader (input : Input) : Option (Chomping × Option Nat × Input) :=
  match chomping? input with
  | some (chomping, rest) => do
    let (indent, rest) ← indentation? rest
    return (chomping, indent, rest)
  | none => do
    let (indent, rest) ← indentation? input
    match indent, chomping? rest with
    | some _, some (chomping, rest) => return (chomping, indent, rest)
    | _, _ => return (.clip, indent, rest)

/-- The empty lines and the indentation in front of the next line with text. An indentation of zero
is not known yet; then the widest indentation counts. -/
def readBlankLines (indent : Nat) : (widest : Nat) → (breaks : List Char) → Input →
    Option (Nat × List Char × Input)
  | widest, breaks, [] => some (widest, breaks, [])
  | widest, breaks, s :: rest =>
    let inIndent := indent = 0 || s.column < indent
    if s.char = ' ' && inIndent then readBlankLines indent (max widest (s.column + 1)) breaks rest
    else if s.char = '\t' && inIndent then none
    else if isBreak s.char then
      readBlankLines indent (max widest s.column) (breaks ++ [s.char]) rest
    else some (max widest s.column, breaks, s :: rest)

/-- What has been read of a block: its text, the last character first, and the line breaks that
have not been taken into it yet. -/
structure Block where
  text : List Char
  lineBreak : List Char
  blankLines : List Char
  startedWhite : Bool

/-- The text up to a line that starts with white space or not. A folded break between two lines
that start with text becomes a space, unless there are empty lines. -/
def Block.joined (b : Block) (folded startsWhite : Bool) : List Char :=
  let between :=
    if folded && b.lineBreak.head? = some '\n' && !b.startedWhite && !startsWhite then
      if b.blankLines = [] then [' '] else []
    else b.lineBreak
  (between ++ b.blankLines).reverse ++ b.text

/-- The whole text of a block. -/
def Block.close (b : Block) : Chomping → List Char
  | .strip => b.text.reverse
  | .clip => b.text.reverse ++ b.lineBreak
  | .keep => b.text.reverse ++ b.lineBreak ++ b.blankLines

def readLines (folded : Bool) (indent : Nat) : (fuel : Nat) → Block → Input → Option (Block × Input)
  | 0, block, input => some (block, input)
  | _ + 1, block, [] => some (block, [])
  | fuel + 1, block, s :: rest =>
    if s.column ≠ indent then some (block, s :: rest)
    else do
      let startsWhite := isWhite s.char
      let (line, input) := Input.line (s :: rest)
      let (lineBreak, input) := match input with
        | b :: input => ([b.char], input)
        | [] => ([], [])
      let (_, blankLines, input) ← readBlankLines indent 0 [] input
      let text := line.reverse ++ block.joined folded startsWhite
      readLines folded indent fuel ⟨text, lineBreak, blankLines, startsWhite⟩ input

/-- Read a block whose mark has been read. `parent` is the indentation of what contains it, or
minus one. -/
def readBlock (folded : Bool) (parent : Int) (input : Input) : Option (List Char × Input) := do
  let (chomping, given, input) ← readHeader input
  let input := input.skipWhite.skipComment
  if !input.atLineEnd then none
  let input := input.drop 1
  let known := match given with
    | some n => (max parent 0).toNat + n
    | none => 0
  let (widest, blankLines, input) ← readBlankLines known 0 [] input
  let indent := if known = 0 then max (max widest (parent + 1).toNat) 1 else known
  let (block, input) ← readLines folded indent (input.length + 1) ⟨[], [], blankLines, false⟩ input
  return (block.close chomping, input)

end AddonLint.Yaml
