import AddonLint.Yaml.Lexer

/-!
# Events of a YAML text

Tokens are read by a grammar whose rules look one token ahead. What is found is told as events:
scalars, aliases, and the starts and ends of collections and documents. Every event is told as soon
as the tokens decide it, so that the events before a fault of the text are known.
-/
namespace AddonLint.Yaml

/-- An anchor and a tag, both optional. -/
structure Properties where
  anchor : Option String
  tag : Option String
  deriving DecidableEq, Repr

/-- An event. -/
inductive Event where
  | documentStart
  | documentEnd
  | scalar (properties : Properties) (text : String) (style : ScalarStyle)
  | alias (name : String)
  | sequenceStart (properties : Properties)
  | sequenceEnd
  | mappingStart (properties : Properties)
  | mappingEnd
  deriving DecidableEq, Repr

namespace Event

/-- An absent value, which counts as an empty plain scalar. -/
def empty : Event := .scalar ⟨none, none⟩ "" .plain

end Event

/-- A part of the grammar that is expected next. In a block an entry of a sequence may stand at the
indentation of the mapping around it. -/
inductive Goal where
  | stream (first : Bool)
  | content
  | documentEnd
  | node (inBlock besideKey : Bool)
  | blockItems
  | besideItems
  | blockKey
  | blockValue
  | flowItems (first : Bool)
  | pairKey
  | pairValue
  | pairEnd
  | flowKey (first : Bool)
  | flowValue
  | noValue
  deriving DecidableEq, Repr

/-- The tag handles of a document with what they stand for. -/
abbrev Handles := List (String × String)

/-- The handles that need no directive. -/
def defaultHandles : Handles := [("!", "!"), ("!!", "tag:yaml.org,2002:")]

/-- How far a stream of events has got: what is expected next, the handles of the document, the
tokens that are left and the events of the last step. -/
structure Progress where
  events : List Event
  goals : List Goal
  handles : Handles
  tokens : List Token

namespace Progress

/-- The directives in front of a document: its handles and the tokens behind them. Each directive
may occur once. -/
def readDirectives : (versioned : Bool) → Handles → List Token → Option (Handles × List Token)
  | versioned, handles, .versionDirective major minor :: rest =>
    if versioned || major ≠ 1 || (minor ≠ 1 && minor ≠ 2) then none
    else readDirectives true handles rest
  | versioned, handles, .tagDirective handle expansion :: rest =>
    if (handles.lookup handle).isSome then none
    else readDirectives versioned (handles ++ [(handle, expansion)]) rest
  | _, handles, tokens => some (handles ++ defaultHandles, tokens)

def isDirective : Token → Bool
  | .versionDirective _ _ | .tagDirective _ _ => true
  | _ => false

/-- Anchor and tag in front of a node, in either order: the anchor, the tag with its handle, and
the tokens behind them. -/
def readProperties : List Token → Option String × Option (String × String) × List Token
  | .anchor name :: .tag handle suffix :: rest => (some name, some (handle, suffix), rest)
  | .tag handle suffix :: .anchor name :: rest => (some name, some (handle, suffix), rest)
  | .anchor name :: rest => (some name, none, rest)
  | .tag handle suffix :: rest => (none, some (handle, suffix), rest)
  | tokens => (none, none, tokens)

/-- The full text of a tag, whose handle has to be known. -/
def expandTag (handles : Handles) : Option (String × String) → Option (Option String)
  | none => some none
  | some ("", suffix) => some (some suffix)
  | some (handle, suffix) => (handles.lookup handle).map fun expansion => some (expansion ++ suffix)

/-- The rule for a node. A tag stays with its node whatever the node is: also a single mark in front
of a scalar is a tag, and the scalar is not one without a tag. -/
def node (p : Progress) (inBlock besideKey : Bool) : Option Progress := do
  match p.tokens with
  | .alias name :: rest => return { p with events := [.alias name], tokens := rest }
  | _ =>
    let (anchor, tag, tokens) := readProperties p.tokens
    let tag ← expandTag p.handles tag
    let properties : Properties := ⟨anchor, tag⟩
    let start (event : Event) (goal : Goal) (tokens : List Token) : Option Progress :=
      some { p with events := [event], goals := goal :: p.goals, tokens }
    match tokens, besideKey, inBlock with
    | [], _, _ => none
    | .blockEntry :: _, true, _ => start (.sequenceStart properties) .besideItems tokens
    | .scalar text style :: rest, _, _ =>
      some { p with events := [.scalar properties text style], tokens := rest }
    | .flowSequenceStart :: rest, _, _ => start (.sequenceStart properties) (.flowItems true) rest
    | .flowMappingStart :: rest, _, _ => start (.mappingStart properties) (.flowKey true) rest
    | .blockSequenceStart :: rest, _, true => start (.sequenceStart properties) .blockItems rest
    | .blockMappingStart :: rest, _, true => start (.mappingStart properties) .blockKey rest
    | _, _, _ =>
      if anchor.isSome || tag.isSome then
        some { p with events := [.scalar properties "" .plain], tokens }
      else none

def absent (p : Progress) (goals : List Goal) (tokens : List Token) : Option Progress :=
  some { p with events := [.empty], goals := goals ++ p.goals, tokens }

def expect (p : Progress) (goals : List Goal) (tokens : List Token) : Option Progress :=
  some { p with events := [], goals := goals ++ p.goals, tokens }

def close (p : Progress) (event : Event) (tokens : List Token) : Option Progress :=
  some { p with events := [event], tokens }

/-- The rule for documents. Behind the first one every document needs a mark of its own. -/
def stream (p : Progress) (first : Bool) : Option Progress := do
  let tokens := if first then p.tokens else p.tokens.dropWhile (· = .documentEnd)
  match tokens with
  | [] => none
  | .streamEnd :: _ => return { p with events := [], goals := [], tokens := [] }
  | token :: _ =>
    if first && !isDirective token && token ≠ .documentStart then
      return { events := [.documentStart], goals := [.node true false, .documentEnd],
               handles := defaultHandles, tokens }
    else
      let (handles, tokens) ← readDirectives false [] tokens
      match tokens with
      | .documentStart :: rest =>
        return { events := [.documentStart], goals := [.content, .documentEnd], handles,
                 tokens := rest }
      | _ => none

/-- The rule for the content of a document behind its mark. -/
def content (p : Progress) : Option Progress :=
  match p.tokens with
  | [] => none
  | token :: _ =>
    if isDirective token || token ∈ [.documentStart, .documentEnd, .streamEnd] then
      p.absent [] p.tokens
    else p.node true false

/-- The rule for the end of a document. -/
def documentEnd (p : Progress) : Option Progress :=
  match p.tokens with
  | [] => none
  | .documentEnd :: rest =>
    some { events := [.documentEnd], goals := [.stream false], handles := [], tokens := rest }
  | tokens => some { events := [.documentEnd], goals := [.stream false], handles := [], tokens }

/-- The value that follows a mark, unless one of some tokens shows that it is absent. -/
def following (p : Progress) (absentBefore : List Token) (node goal : Goal) (tokens : List Token) :
    Option Progress :=
  match tokens with
  | [] => none
  | token :: _ =>
    if token ∈ absentBefore then p.absent [goal] tokens else p.expect [node, goal] tokens

def blockItems (p : Progress) : Option Progress :=
  match p.tokens with
  | .blockEntry :: rest =>
    p.following [.blockEntry, .blockEnd] (.node true false) .blockItems rest
  | .blockEnd :: rest => p.close .sequenceEnd rest
  | _ => none

/-- The rule for the next item of a sequence at the indentation of the mapping around it. -/
def besideItems (p : Progress) : Option Progress :=
  match p.tokens with
  | [] => none
  | .blockEntry :: rest =>
    p.following [.blockEntry, .key, .value, .blockEnd] (.node true false) .besideItems rest
  | tokens => p.close .sequenceEnd tokens

def blockKey (p : Progress) : Option Progress :=
  match p.tokens with
  | .key :: rest => p.following [.key, .value, .blockEnd] (.node true true) .blockValue rest
  | .blockEnd :: rest => p.close .mappingEnd rest
  | _ => none

def blockValue (p : Progress) : Option Progress :=
  match p.tokens with
  | [] => none
  | .value :: rest => p.following [.key, .value, .blockEnd] (.node true true) .blockKey rest
  | tokens => p.absent [.blockKey] tokens

/-- The tokens of a flow collection behind the comma that every entry but the first needs, or with
the closing mark in front. -/
def afterComma (first : Bool) (closing : Token) (tokens : List Token) : Option (List Token) :=
  match tokens with
  | [] => none
  | token :: rest =>
    if first || token = closing then some tokens
    else if token = .flowEntry then (if rest = [] then none else some rest)
    else none

/-- The rule for the next item of a flow sequence. An item may be a single pair. -/
def flowItems (p : Progress) (first : Bool) : Option Progress := do
  match ← afterComma first .flowSequenceEnd p.tokens with
  | [] => none
  | .key :: rest =>
    return { p with events := [.mappingStart ⟨none, none⟩],
                    goals := .pairKey :: .flowItems false :: p.goals, tokens := rest }
  | .flowSequenceEnd :: rest => p.close .sequenceEnd rest
  | tokens => p.expect [.node false false, .flowItems false] tokens

/-- The rule for the key of a single pair. A mark behind which the key is absent is skipped. -/
def pairKey (p : Progress) : Option Progress :=
  match p.tokens with
  | [] => none
  | token :: rest =>
    if token = .value || token = .flowEntry || token = .flowSequenceEnd then
      p.absent [.pairValue] rest
    else p.expect [.node false false, .pairValue] p.tokens

def pairValue (p : Progress) : Option Progress :=
  match p.tokens with
  | [] => none
  | .value :: rest => p.following [.flowEntry, .flowSequenceEnd] (.node false false) .pairEnd rest
  | tokens => p.absent [.pairEnd] tokens

def pairEnd (p : Progress) : Option Progress :=
  match p.tokens with
  | [] => none
  | tokens => p.close .mappingEnd tokens

def flowKey (p : Progress) (first : Bool) : Option Progress := do
  match ← afterComma first .flowMappingEnd p.tokens with
  | [] => none
  | .key :: rest =>
    p.following [.value, .flowEntry, .flowMappingEnd] (.node false false) .flowValue rest
  | .flowMappingEnd :: rest => p.close .mappingEnd rest
  | tokens => p.expect [.node false false, .noValue] tokens

/-- The rule for the value of a flow mapping. -/
def flowValue (p : Progress) : Option Progress :=
  match p.tokens with
  | [] => none
  | .value :: rest =>
    p.following [.flowEntry, .flowMappingEnd] (.node false false) (.flowKey false) rest
  | tokens => p.absent [.flowKey false] tokens

/-- The rule for the value of a key without a mark, which is always absent. -/
def noValue (p : Progress) : Option Progress :=
  match p.tokens with
  | [] => none
  | tokens => p.absent [.flowKey false] tokens

/-- One step towards a goal. There is none if the tokens do not fit or if they end too soon. -/
def step (p : Progress) : Goal → Option Progress
  | .stream first => p.stream first
  | .content => p.content
  | .documentEnd => p.documentEnd
  | .node inBlock besideKey => p.node inBlock besideKey
  | .blockItems => p.blockItems
  | .besideItems => p.besideItems
  | .blockKey => p.blockKey
  | .blockValue => p.blockValue
  | .flowItems first => p.flowItems first
  | .pairKey => p.pairKey
  | .pairValue => p.pairValue
  | .pairEnd => p.pairEnd
  | .flowKey first => p.flowKey first
  | .flowValue => p.flowValue
  | .noValue => p.noValue

end Progress

/-- The events of a text, and whether it is malformed behind them. -/
structure Events where
  events : List Event
  malformed : Bool

namespace Events

/-- Go on until no goal is left. No token takes more than four steps. -/
def run : (fuel : Nat) → (told : List Event) → Progress → Events
  | 0, told, _ => ⟨told.reverse, true⟩
  | fuel + 1, told, p =>
    match p.goals with
    | [] => ⟨told.reverse, false⟩
    | goal :: goals =>
      match { p with goals := goals }.step goal with
      | none => ⟨told.reverse, true⟩
      | some next => run fuel (next.events.reverse ++ told) next

def ofText (text : String) : Events :=
  let tokens := Token.ofText text
  run (4 * tokens.length + 8) [] ⟨[], [.stream true], [], tokens⟩

end Events

end AddonLint.Yaml
