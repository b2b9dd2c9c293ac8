import AddonLint.Yaml.Error
import AddonLint.Yaml.Event

/-!
# Documents of a YAML text

A document is a tree of nodes. Where a text is malformed its last document is cut: the innermost
collection that was open ends with a node that is missing, so that everything in front of the fault
can still be read. Anchors are numbered, and an alias leads to the last node with its number.
-/
namespace AddonLint.Yaml

/-- A part of a document. -/
inductive Node where
  | missing
  | alias (anchor : Nat)
  | scalar (anchor : Option Nat) (tag : Option String) (text : String) (style : ScalarStyle)
  | sequence (anchor : Option Nat) (tag : Option String) (items : List Node)
  | mapping (anchor : Option Nat) (tag : Option String) (entries : List (Node × Node))
  deriving Inhabited

namespace Node

/-- An absent value. -/
def empty : Node := .scalar none none "" .plain

mutual

/-- Whether a node or a part of it is missing. -/
def isCut : Node → Bool
  | .missing => true
  | .alias _ => false
  | .scalar _ _ _ _ => false
  | .sequence _ _ items => isCutItems items
  | .mapping _ _ entries => isCutEntries entries

def isCutItems : List Node → Bool
  | [] => false
  | item :: rest => item.isCut || isCutItems rest

def isCutEntries : List (Node × Node) → Bool
  | [] => false
  | (key, value) :: rest => key.isCut || value.isCut || isCutEntries rest

end

mutual

/-- The nodes with an anchor, each with its number, in the order in which they start. -/
def anchored : Node → List (Nat × Node)
  | .missing => []
  | .alias _ => []
  | .scalar anchor tag text style =>
    anchor.toList.map fun a => (a, .scalar anchor tag text style)
  | .sequence anchor tag items =>
    (anchor.toList.map fun a => (a, .sequence anchor tag items)) ++ anchoredItems items
  | .mapping anchor tag entries =>
    (anchor.toList.map fun a => (a, .mapping anchor tag entries)) ++ anchoredEntries entries

def anchoredItems : List Node → List (Nat × Node)
  | [] => []
  | item :: rest => item.anchored ++ anchoredItems rest

def anchoredEntries : List (Node × Node) → List (Nat × Node)
  | [] => []
  | (key, value) :: rest => key.anchored ++ value.anchored ++ anchoredEntries rest

end

end Node

/-- A document: its root, its anchored nodes, the number of events it was told in, and what is wrong
with the text behind the part that could be read. -/
structure Document where
  root : Node
  anchors : List (Nat × Node)
  eventCount : Nat
  error : Option Error

namespace Document

/-- A collection that is still open, with what has been read of it, the last part first. A mapping
may wait for the value of a key. -/
inductive Frame where
  | sequence (anchor : Option Nat) (tag : Option String) (items : List Node)
  | mapping (anchor : Option Nat) (tag : Option String) (entries : List (Node × Node))
      (key : Option Node)

/-- The collection of a frame. A key without a value is followed by a missing one. -/
def Frame.close : Frame → Node
  | .sequence anchor tag items => .sequence anchor tag items.reverse
  | .mapping anchor tag entries none => .mapping anchor tag entries.reverse
  | .mapping anchor tag entries (some key) =>
    .mapping anchor tag ((key, .missing) :: entries).reverse

/-- A frame with one more part. -/
def Frame.add (node : Node) : Frame → Frame
  | .sequence anchor tag items => .sequence anchor tag (node :: items)
  | .mapping anchor tag entries none => .mapping anchor tag entries (some node)
  | .mapping anchor tag entries (some key) => .mapping anchor tag ((key, node) :: entries) none

/-- A document that is being read: the open collections, the innermost first, the root once it is
complete, the numbers of the anchors, and the events so far. -/
structure Draft where
  frames : List Frame
  root : Option Node
  names : List (String × Nat)
  eventCount : Nat

namespace Draft

/-- Nothing has been read. -/
def empty : Draft := ⟨[], none, [], 0⟩

/-- Put a complete node into the innermost open collection. -/
def add (d : Draft) (node : Node) : Draft :=
  match d.frames with
  | [] => { d with root := some node }
  | frame :: rest => { d with frames := frame.add node :: rest }

/-- The number of an anchor: how many names there have been before. A name that is used again
counts once. -/
def number (d : Draft) : Option String → Draft × Option Nat
  | none => (d, none)
  | some name =>
    let n := d.names.length
    ({ d with names := (name, n) :: d.names.filter fun p => p.1 ≠ name }, some n)

def push (d : Draft) (properties : Properties) (frame : Option Nat → Option String → Frame) :
    Draft :=
  let (d, anchor) := d.number properties.anchor
  { d with frames := frame anchor properties.tag :: d.frames }

def pop (d : Draft) : Draft :=
  match d.frames with
  | [] => d
  | frame :: rest => { d with frames := rest }.add frame.close

/-- Take in an event; there is no draft for an alias without its anchor. -/
def take (d : Draft) (event : Event) : Option Draft :=
  let d := { d with eventCount := d.eventCount + 1 }
  match event with
  | .documentStart | .documentEnd => some d
  | .alias name => (d.names.lookup name).map fun n => d.add (.alias n)
  | .scalar properties text style =>
    let (d, anchor) := d.number properties.anchor
    some (d.add (.scalar anchor properties.tag text style))
  | .sequenceStart properties => some (d.push properties fun anchor tag => .sequence anchor tag [])
  | .mappingStart properties =>
    some (d.push properties fun anchor tag => .mapping anchor tag [] none)
  | .sequenceEnd | .mappingEnd => some d.pop

/-- The root of a draft that ends here: the innermost open collection ends with a missing part. -/
def cut (d : Draft) : Node :=
  let addMissing (frame : Frame) : Node :=
    match frame with
    | .mapping anchor tag entries none =>
      .mapping anchor tag ((.missing, .missing) :: entries).reverse
    | frame => (frame.add .missing).close
  match d.frames with
  | [] => d.root.getD .missing
  | frame :: rest => rest.foldl (fun node frame => (frame.add node).close) (addMissing frame)

def toDocument (d : Draft) (error : Option Error) : Document :=
  let root := d.cut
  ⟨root, root.anchored, d.eventCount, error⟩

end Draft

/-- The documents of events. Nothing is read behind an error. -/
def ofEvents (malformed : Bool) : Option Draft → List Event → List Document
  | none, [] => []
  | some d, [] => if malformed then [d.toDocument (some .malformed)] else []
  | _, .documentStart :: rest => ofEvents malformed (some .empty) rest
  | some d, .documentEnd :: rest => d.toDocument none :: ofEvents malformed none rest
  | none, .documentEnd :: rest => ofEvents malformed none rest
  | some d, event :: rest =>
    match d.take event with
    | some d => ofEvents malformed (some d) rest
    | none => [d.toDocument (some .unknownAnchor)]
  | none, _ :: rest => ofEvents malformed none rest

def blank : Document := ⟨.empty, [], 1, none⟩

def unreadable : Document := ⟨.missing, [], 0, some .malformed⟩

/-- The documents of a text. A text without documents counts as a blank one; a fault between two
documents counts as one more. -/
def ofText (text : String) : List Document :=
  let events := Events.ofText text
  let documents := ofEvents events.malformed none events.events
  let betweenDocuments := match events.events.getLast? with
    | none | some .documentEnd => true
    | _ => false
  if events.malformed && betweenDocuments then documents ++ [unreadable]
  else if documents.isEmpty then [blank]
  else documents

/-- The node that an alias leads to. -/
def anchoredNode? (d : Document) (anchor : Nat) : Option Node := d.anchors.reverse.lookup anchor

end Document

end AddonLint.Yaml
