import AddonLint.Yaml.Token

/-!
# From characters to tokens

Tokens are read one after the other. What makes a mapping is only known at the colon behind its
first key, so the places where a key may have started are remembered, and the tokens for the mapping
and the key are put in there afterwards. A key has to stand on one line and its colon has to follow
within 1024 characters.

A text may turn out to be malformed, also by a key that cannot get its colon any more. Of the tokens
before that place those are settled that no remembered key can still change; only they are seen by a
reader of the tokens.
-/
namespace AddonLint.Yaml

/-- A place where a key may have started, with the number of its first token. It must be a key if it
stands at the indentation of a block mapping. -/
structure PossibleKey where
  token : Nat
  place : Place
  required : Bool

/-- A text that is being cut into tokens. Every flow collection remembers a possible key of its
own, the innermost first; blocks remember their indentations. No part of the text is longer than
`size`, and it ends at `finish`. -/
structure Lexer where
  size : Nat
  finish : Place
  input : Input
  tokens : Array Token
  keyAllowed : Bool
  indent : Int
  outerIndents : List Int
  key : Option PossibleKey
  outerKeys : List (Option PossibleKey)

namespace Lexer

def start (input : Input) : Lexer :=
  ⟨input.length, input.finish, input, #[], true, -1, [], none, []⟩

def inFlow (l : Lexer) : Bool := !l.outerKeys.isEmpty

/-- The farthest that a colon may stand behind the start of its key. -/
def maxKeyLength : Nat := 1024

def place (l : Lexer) : Place :=
  match l.input with
  | s :: _ => ⟨s.line, s.column⟩
  | [] => l.finish

/-- Whether a possible key can no longer end at a place. -/
def isPast (here : Place) (k : PossibleKey) : Bool :=
  k.place.line < here.line || k.place.column + maxKeyLength < here.column

/-- Forget a possible key if it is past; one that must be a key is an error then. -/
def dropPast (here : Place) (key : Option PossibleKey) : Option (Option PossibleKey) :=
  match key with
  | some k => if isPast here k then (if k.required then none else some none) else some key
  | none => some none

/-- Forget all possible keys that are past. -/
def dropPastKeys (l : Lexer) : Option Lexer := do
  let key ← dropPast l.place l.key
  let outerKeys ← l.outerKeys.mapM (dropPast l.place)
  return { l with key, outerKeys }

def push (l : Lexer) (t : Token) : Lexer := { l with tokens := l.tokens.push t }

/-- Append a token of one character and go on behind it. -/
def pushNext (l : Lexer) (t : Token) : Lexer :=
  { l with tokens := l.tokens.push t, input := l.input.drop 1 }

/-- Go on with a token that has been read. -/
def pushRead (l : Lexer) : Token × Input → Lexer := fun (t, input) =>
  { l with tokens := l.tokens.push t, input }

/-- Allow or forbid that a key starts at the next token. -/
def allowKey (l : Lexer) (allowed : Bool) : Lexer := { l with keyAllowed := allowed }

/-- Forget the innermost possible key, which must not be one that has to be a key. -/
def removeKey (l : Lexer) : Option Lexer :=
  match l.key with
  | some k => if k.required then none else some { l with key := none }
  | none => some l

/-- Remember that a key may start at the next token, if keys are allowed here. -/
def saveKey (l : Lexer) : Option Lexer :=
  if !l.keyAllowed then some l
  else do
    let l ← l.removeKey
    let required := !l.inFlow && l.indent = l.place.column
    return { l with key := some ⟨l.tokens.size, l.place, required⟩ }

/-- Start a block at a column unless there is one already; its token is put in at a place. -/
def openBlock (l : Lexer) (column : Nat) (place : Nat) (t : Token) : Lexer :=
  if l.inFlow || (column : Int) ≤ l.indent then l
  else
    { l with
      tokens := l.tokens.insertIdxIfInBounds place t
      indent := column
      outerIndents := l.indent :: l.outerIndents }

/-- End the blocks with an indentation above a column. -/
def closeBlocks (l : Lexer) (column : Int) : Lexer :=
  if l.inFlow then l
  else go l.tokens l.indent l.outerIndents
where
  /-- End blocks from the innermost one on. -/
  go (tokens : Array Token) (indent : Int) : List Int → Lexer
    | [] => { l with tokens, indent, outerIndents := [] }
    | outer :: rest =>
      if column < indent then go (tokens.push .blockEnd) outer rest
      else { l with tokens, indent, outerIndents := outer :: rest }

def openFlow (l : Lexer) (t : Token) : Option Lexer := do
  let l ← l.saveKey
  return { l with key := none, outerKeys := l.key :: l.outerKeys }.allowKey true |>.pushNext t

def closeFlow (l : Lexer) (t : Token) : Option Lexer := do
  let l ← l.removeKey
  let l := match l.outerKeys with
    | key :: outerKeys => { l with key, outerKeys }
    | [] => l
  return (l.allowKey false).pushNext t

def readBlockEntry (l : Lexer) : Option Lexer := do
  if !l.inFlow && !l.keyAllowed then none
  let l ← (l.openBlock l.place.column l.tokens.size .blockSequenceStart).removeKey
  return (l.allowKey true).pushNext .blockEntry

/-- A key with a mark of its own. -/
def readMarkedKey (l : Lexer) : Option Lexer := do
  if !l.inFlow && !l.keyAllowed then none
  let l ← (l.openBlock l.place.column l.tokens.size .blockMappingStart).removeKey
  return (l.allowKey (!l.inFlow)).pushNext .key

/-- The mark of a value. Behind a possible key, that is a key now. -/
def readValueMark (l : Lexer) : Option Lexer :=
  match l.key with
  | some k =>
    let l := { l with tokens := l.tokens.insertIdxIfInBounds k.token .key, key := none }
    let l := l.openBlock k.place.column k.token .blockMappingStart
    some ((l.allowKey false).pushNext .value)
  | none =>
    if l.inFlow then some ((l.allowKey false).pushNext .value)
    else if !l.keyAllowed then none
    else
      let l := l.openBlock l.place.column l.tokens.size .blockMappingStart
      some ((l.allowKey true).pushNext .value)

/-- A document mark of three characters. -/
def readDocumentMark (l : Lexer) (t : Token) : Option Lexer := do
  let l ← (l.closeBlocks (-1)).removeKey
  return { l.allowKey false with input := l.input.drop 3, tokens := l.tokens.push t }

/-- The end of the text, which ends its last line. -/
def readEnd (l : Lexer) : Option Lexer := do
  let l ← (l.closeBlocks (-1)).removeKey
  return { l.allowKey false with finish := ⟨l.finish.line + 1, 0⟩ }.push .streamEnd

def readDirective (l : Lexer) : Option Lexer := do
  let l ← (l.closeBlocks (-1)).removeKey
  return (l.allowKey false).pushRead (← Token.readDirective (l.input.drop 1))

/-- A token that may be the start of a key and after which no key may start. -/
def readProperty (l : Lexer) (read : Input → Option (Token × Input)) : Option Lexer := do
  let l ← l.saveKey
  return (l.allowKey false).pushRead (← read l.input)

def readAnchor (make : String → Token) (input : Input) : Option (Token × Input) :=
  (Token.readAnchor (input.drop 1)).map fun (name, rest) => (make name, rest)

def readQuotedScalar (size : Nat) (quote : Char) (input : Input) : Option (Token × Input) :=
  (readQuoted quote (size + 1) [] (input.drop 1)).map fun (text, rest) =>
    (.scalar (String.ofList text) .quoted, rest)

def readBlockScalar (l : Lexer) (style : ScalarStyle) : Option Lexer := do
  let l ← l.removeKey
  let (text, rest) ← readBlock (style = .folded) l.indent (l.input.drop 1)
  return (l.allowKey true).pushRead (.scalar (String.ofList text) style, rest)

/-- A plain scalar. A key may start behind it if it ended with a line. -/
def readPlainScalar (l : Lexer) : Option Lexer := do
  let l ← l.saveKey
  let (text, broken, rest) ←
    readPlain l.inFlow (l.indent + 1).toNat (2 * l.size + 1) true [] .none l.input
  return (l.allowKey broken).pushRead (.scalar (String.ofList text) .plain, rest)

/-- Skip spaces, comments and line breaks. Tabs count as spaces where no key may start. In a block
a key may start on a new line. A byte order mark may stand at the start of the text. -/
def skipToToken (inFlow : Bool) : (inComment keyAllowed : Bool) → Input → Bool × Input
  | _, keyAllowed, [] => (keyAllowed, [])
  | inComment, keyAllowed, s :: rest =>
    if isBreak s.char then skipToToken inFlow false (keyAllowed || !inFlow) rest
    else if inComment || s.char = '#' then skipToToken inFlow true keyAllowed rest
    else if s.char = ' ' || (s.char = '\t' && (inFlow || !keyAllowed)) ||
        (s.char = byteOrderMark && s.line = 0 && s.column = 0) then
      skipToToken inFlow false keyAllowed rest
    else (keyAllowed, s :: rest)

/-- The characters that no plain scalar starts with. -/
def isIndicator (c : Char) : Bool := "-?:,[]\x7b\x7d#&*!|>\x27\x22%@`".toList.contains c

/-- Whether a plain scalar starts at a character. -/
def startsPlain (inFlow : Bool) (c : Char) (rest : Input) : Bool :=
  !(isIndicator c || isWhite c) || (c = '-' && !Input.next isWhite rest) ||
    (!inFlow && (c = '?' || c = ':') && !Input.atWordEnd rest)

/-- Read the token that starts at the next character. -/
def readToken (l : Lexer) : Option Lexer :=
  match l.input with
  | [] => l.readEnd
  | s :: rest =>
    let wordEnds := Input.atWordEnd rest
    if s.char = '%' && s.column = 0 then l.readDirective
    else if l.input.atTripleMark '-' then l.readDocumentMark .documentStart
    else if l.input.atTripleMark '.' then l.readDocumentMark .documentEnd
    else
      match s.char with
      | '[' => l.openFlow .flowSequenceStart
      | '\x7b' => l.openFlow .flowMappingStart
      | ']' => l.closeFlow .flowSequenceEnd
      | '\x7d' => l.closeFlow .flowMappingEnd
      | ',' => l.removeKey.map fun l => (l.allowKey true).pushNext .flowEntry
      | '*' => l.readProperty (readAnchor .alias)
      | '&' => l.readProperty (readAnchor .anchor)
      | '!' => l.readProperty (Token.readTag l.inFlow)
      | '\x27' => l.readProperty (readQuotedScalar l.size '\x27')
      | '\x22' => l.readProperty (readQuotedScalar l.size '\x22')
      | c =>
        if c = '-' && wordEnds then l.readBlockEntry
        else if c = '?' && (l.inFlow || wordEnds) then l.readMarkedKey
        else if c = ':' && (l.inFlow || wordEnds) then l.readValueMark
        else if c = '|' && !l.inFlow then l.readBlockScalar .literal
        else if c = '>' && !l.inFlow then l.readBlockScalar .folded
        else if startsPlain l.inFlow c rest then l.readPlainScalar
        else none

/-- Go to the next token and read it, without the keys that are past then. -/
def step (l : Lexer) : Option Lexer := do
  let (keyAllowed, input) := skipToToken l.inFlow false l.keyAllowed l.input
  let l ← { l with keyAllowed, input }.dropPastKeys
  (← (l.closeBlocks l.place.column).readToken).dropPastKeys

/-- The number of tokens that no remembered key can still change. -/
def settled (l : Lexer) : Nat :=
  let pending := (l.key :: l.outerKeys).filterMap fun key => key.map (·.token)
  pending.foldl min l.tokens.size

/-- Read tokens to the end or to a place where the text is malformed. Every step but the last one
reads a character at least. -/
def run : (fuel : Nat) → Lexer → List Token
  | 0, l => l.tokens.toList.take l.settled
  | fuel + 1, l =>
    match l.step with
    | none => l.tokens.toList.take l.settled
    | some next =>
      if next.tokens.back? = some .streamEnd then next.tokens.toList else run fuel next

end Lexer

/-- The tokens of a text. Those of a malformed text do not end with the end of the stream. -/
def Token.ofText (text : String) : List Token :=
  match Input.ofChars? text.toList with
  | none => []
  | some input => Lexer.run (input.length + 1) (.start input)

end AddonLint.Yaml
