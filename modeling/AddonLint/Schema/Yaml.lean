import AddonLint.Schema.Basic
import AddonLint.Yaml.Document
import AddonLint.Yaml.Resolve

/-!
# Reading YAML texts by schema

Nodes are read in the order of the document, and the first fault counts; the missing fields of a
record are reported behind its last entry. Texts take every scalar as it is written. An alias is
read like the node it leads to; how often aliases may be followed depends on the size of the
document, and how deep collections may lie in each other is limited too.
-/
namespace AddonLint

namespace Yaml

/-- The deepest nesting of collections. -/
def maxDepth : Nat := 128

/-- Reading with a count of the aliases that have been followed. -/
abbrev Decode (α : Type) := StateT Nat (Except Error) α

/-- Where a node is read: its document and its place in there. -/
structure Site where
  document : Document
  path : Path

namespace Site

def fault {α : Type} (site : Site) (cause : Fault) : Decode α := throw (.fault site.path cause)

/-- The fault that cut the document. -/
def broken {α : Type} (site : Site) : Decode α := throw (site.document.error.getD .malformed)

/-- The place one step further. -/
def enter (site : Site) (step : Step) : Site := { site with path := step :: site.path }

def leave (site : Site) : Site := { site with path := site.path.tail }

/-- The most often that aliases of the document may be followed. -/
def maxJumps (site : Site) : Nat := 100 * site.document.eventCount

/-- A node itself, or the node that it leads to. -/
def follow (site : Site) : Node → Decode Node
  | .alias anchor => do
    let jumps ← get
    if site.maxJumps ≤ jumps then throw .tooManyJumps
    set (jumps + 1)
    match site.document.anchoredNode? anchor with
    | some node => return node
    | none => site.broken
  | .missing => site.broken
  | node => return node

/-- The fault of a node that is no value of an expected kind. -/
def wrongType {α : Type} (site : Site) (node : Node) (expected : String) : Decode α :=
  match node with
  | .scalar _ tag text style =>
    match meaning tag text style with
    | .ok found => site.fault (.wrongType found expected)
    | .error cause => site.fault cause
  | .sequence _ _ _ => site.fault (.wrongType .sequence expected)
  | .mapping _ _ _ => site.fault (.wrongType .map expected)
  | _ => site.broken

/-- The text of a key, and the step to its value. -/
def key (site : Site) (expected : String) (node : Node) : Decode (String × Step) := do
  match node, ← site.follow node with
  | .alias _, .scalar _ _ text _ => return (text, .other)
  | _, .scalar _ _ text _ => return (text, .key text)
  | _, other => site.wrongType other expected

/-- Pass over a node that says nothing here. Aliases in it are not followed. -/
def ignore (site : Site) (node : Node) : Decode Unit := if node.isCut then site.broken else pure ()

end Site

/-- The words for a key of an object of any kind, by its position. -/
def expectedKey (position : Nat) : String := if position = 0 then "a string key" else "a string"

/-- The JSON value of a scalar. A number that is not finite becomes `null`. -/
def jsonOfFinding? : Finding → Option Json
  | .nothing => some .null
  | .flag b => some (.bool b)
  | .integer n => some (.int n)
  | .float x => some (if x.isFinite then .float x else .null)
  | .text s => some (.str s)
  | _ => none

/-- Read a value of any kind as JSON. The keys of its mappings are taken as they are written. -/
def readJson : (depth : Nat) → Site → Node → Decode Json
  | depth, site, node => do
    let refuse : Decode Json := site.fault (.wrongType .tagged "any valid JSON value")
    match ← site.follow node with
    | .scalar _ tag text style =>
      if isLocalTag tag then refuse
      else
        match meaning tag text style with
        | .error cause => site.fault cause
        | .ok found =>
          match jsonOfFinding? found with
          | some value => return value
          | none => site.fault .numberOutOfRange
    | .sequence _ tag items =>
      if isLocalTag tag then refuse
      else
        match depth with
        | 0 => throw .tooDeep
        | depth + 1 =>
          let values ← items.zipIdx.mapM fun (item, i) =>
            readJson depth (site.enter (.item i)) item
          return .arr values
    | .mapping _ tag entries =>
      if isLocalTag tag then refuse
      else
        match depth with
        | 0 => throw .tooDeep
        | depth + 1 =>
          return .object (← entries.zipIdx.mapM fun ((key, value), i) => do
            let (name, step) ← site.key (expectedKey i) key
            return (name, ← readJson depth (site.enter step) value))
    | _ => site.broken

/-- A value that is kept until the record it stands in has been read. Its mappings may still have
keys of any kind. -/
inductive Kept where
  | scalar (found : Finding)
  | sequence (items : List Kept)
  | mapping (entries : List (Kept × Kept))

namespace Kept

/-- What kind of value this is, for error texts. -/
def finding : Kept → Finding
  | .scalar found => found
  | .sequence _ => .sequence
  | .mapping _ => .map

mutual

def toJson : Kept → Except Fault Json
  | .scalar found => return (jsonOfFinding? found).getD .null
  | .sequence items => return .arr (← itemsToJson items)
  | .mapping entries => return .object (← entriesToJson 0 entries)

def itemsToJson : List Kept → Except Fault (List Json)
  | [] => return []
  | item :: rest => return (← item.toJson) :: (← itemsToJson rest)

/-- The members of an object from kept entries, the first of them standing at a position. -/
def entriesToJson (position : Nat) : List (Kept × Kept) → Except Fault (List (String × Json))
  | [] => return []
  | (key, value) :: rest => do
    let name ← match key with
      | .scalar (.text s) => pure s
      | key => throw (.wrongType key.finding (expectedKey position))
    return (name, ← value.toJson) :: (← entriesToJson (position + 1) rest)

end

end Kept

/-- Read a value of any kind to be kept. -/
def readKept : (depth : Nat) → Site → Node → Decode Kept
  | depth, site, node => do
    match ← site.follow node with
    | .scalar _ tag text style =>
      if isLocalTag tag then site.fault .taggedExtra
      else
        match meaning tag text style with
        | .error cause => site.fault cause
        | .ok (.wideInteger n) => site.fault (.wrongType (.wideInteger n) "any value")
        | .ok found => return .scalar found
    | .sequence _ tag items =>
      if isLocalTag tag then site.fault .taggedExtra
      else
        match depth with
        | 0 => throw .tooDeep
        | depth + 1 =>
          return .sequence
            (← items.zipIdx.mapM fun (item, i) => readKept depth (site.enter (.item i)) item)
    | .mapping _ tag entries =>
      if isLocalTag tag then site.fault .taggedExtra
      else
        match depth with
        | 0 => throw .tooDeep
        | depth + 1 =>
          return .mapping (← entries.mapM fun (key, value) => do
            let kept ← readKept depth site key
            let step : Step := match key with
              | .scalar _ _ text _ => .key text
              | _ => .other
            return (kept, ← readKept depth (site.enter step) value))
    | _ => site.broken

/-- Whether a scalar counts as an absent value. -/
def isBlankScalar (text : String) (style : ScalarStyle) : Bool := text = "" && style = .plain

/-- Whether a scalar may be read as a value of a kind other than text: it is plain, or a literal
block with the tag of that kind. -/
def mayMean (core : CoreTag) (tag : Option String) (style : ScalarStyle) : Bool :=
  style = .plain || (style = .literal && tag.bind CoreTag.ofTag? = some core)

/-- Whether a node says that there is no value. -/
def saysNothing (site : Site) : Node → Decode Bool
  | .scalar _ tag text style =>
    if style ≠ .plain then return false
    else
      match tag with
      | none => return text = "" || isNullWord text
      | some t =>
        if CoreTag.ofTag? t ≠ some .null then return false
        else if isNullWord text then return true
        else site.leave.fault (.wrongValue (.text text) CoreTag.null.expected)
  | _ => return false

end Yaml

open Yaml

/-- The values of the fields that have been read so far. -/
@[reducible] def FieldList.Slots : FieldList → Type
  | .nil => Unit
  | .cons _ _ schema rest => Option schema.Val × rest.Slots

def FieldList.noSlots : (fs : FieldList) → fs.Slots
  | .nil => ()
  | .cons _ _ _ rest => (none, rest.noSlots)

/-- The values of all fields; the first field that may not be absent is a fault. -/
def FieldList.ofSlots : (fs : FieldList) → fs.Slots → Except Fault fs.Vals
  | .nil, _ => return ()
  | .cons key presence schema rest, (slot, slots) => do
    let v ← match slot, schema.absent? presence with
      | some v, _ => pure v
      | none, some v => pure v
      | none, none => throw (.missingField key)
    return (v, ← rest.ofSlots slots)

mutual

def Schema.ofNode : (s : Schema) → (depth : Nat) → Site → Node → Decode s.Val
  | .text expected, _, site, node => do
    match ← site.follow node with
    | .scalar _ _ text _ => return text
    | other => site.wrongType other expected
  | .flag, _, site, node => do
    match ← site.follow node with
    | .scalar anchor tag text style =>
      match if mayMean .boolean tag style then boolean? text else none with
      | some b => return b
      | none => site.wrongType (.scalar anchor tag text style) "a boolean"
    | other => site.wrongType other "a boolean"
  | .natural expected, _, site, node => do
    match ← site.follow node with
    | .scalar anchor tag text style =>
      let number :=
        if mayMean .integer tag style then Yaml.unsigned? Numeral.maxUnsigned64 text else none
      match number with
      | some n => return UInt64.ofNat n
      | none => site.wrongType (.scalar anchor tag text style) expected
    | other => site.wrongType other expected
  | .any, depth, site, node => readJson depth site node
  | .nullable inner, depth, site, node => do
    let node ← site.follow node
    if ← saysNothing site node then return none
    else return some (← inner.ofNode depth site node)
  | .list item, depth, site, node => do
    match ← site.follow node with
    | .sequence _ _ items =>
      match depth with
      | 0 => throw .tooDeep
      | depth + 1 =>
        items.zipIdx.mapM fun (node, i) => item.ofNode depth (site.enter (.item i)) node
    | .scalar anchor tag text style =>
      if isBlankScalar text style then return []
      else site.wrongType (.scalar anchor tag text style) "a sequence"
    | other => site.wrongType other "a sequence"
  | .dict item, depth, site, node => do
    match ← site.follow node with
    | .mapping _ _ entries =>
      match depth with
      | 0 => throw .tooDeep
      | depth + 1 =>
        return Dict.ofList (← entries.mapM fun (key, value) => do
          let (name, step) ← site.key "a string" key
          return (name, ← item.ofNode depth (site.enter step) value))
    | .scalar anchor tag text style =>
      if isBlankScalar text style then return Dict.empty
      else site.wrongType (.scalar anchor tag text style) "a map"
    | other => site.wrongType other "a map"
  | .record expected closed fields, depth, site, node => do
    let slots ← match ← site.follow node with
      | .mapping _ _ entries =>
        match depth with
        | 0 => throw .tooDeep
        | depth + 1 =>
          entries.foldlM (fun slots (key, value) => do
            let (name, step) ← site.key "field identifier" key
            match ← fields.fill name depth site step value slots with
            | some slots => return slots
            | none =>
              if closed then site.fault (.unknownField name fields.keys)
              else site.ignore value
              return slots) fields.noSlots
      | .scalar anchor tag text style =>
        if isBlankScalar text style then pure fields.noSlots
        else site.wrongType (.scalar anchor tag text style) expected
      | other => site.wrongType other expected
    match fields.ofSlots slots with
    | .ok vals => return vals
    | .error cause => site.fault cause
  | .openRecord expected fields, depth, site, node => do
    let (slots, kept) ← match ← site.follow node with
      | .mapping _ _ entries =>
        match depth with
        | 0 => throw .tooDeep
        | depth + 1 =>
          entries.foldlM (fun (slots, kept) (key, value) => do
            let (name, step) ← site.key "field identifier" key
            match ← fields.fill name depth site step value slots with
            | some slots => return (slots, kept)
            | none => return (slots, kept ++ [(name, ← readKept depth (site.enter step) value)]))
            (fields.noSlots, [])
      | .scalar anchor tag text style =>
        if isBlankScalar text style then pure (fields.noSlots, [])
        else site.wrongType (.scalar anchor tag text style) expected
      | other => site.wrongType other expected
    match fields.ofSlots slots, kept.mapM fun e => e.2.toJson.map fun value => (e.1, value) with
    | .ok vals, .ok extra => return (vals, Dict.ofList extra)
    | .error cause, _ => site.fault cause
    | _, .error cause => site.fault cause

/-- Read the value of a key as a field, unless no field has that name. A field may be given once. -/
def FieldList.fill : (fs : FieldList) → (name : String) → (depth : Nat) → Site → Step → Node →
    fs.Slots → Decode (Option fs.Slots)
  | .nil, _, _, _, _, _, _ => return none
  | .cons key _ schema rest, name, depth, site, step, node, (slot, slots) => do
    if key = name then
      if slot.isSome then site.fault (.duplicateField key)
      else return some (some (← schema.ofNode depth (site.enter step) node), slots)
    else return (← rest.fill name depth site step node slots).map fun slots => (slot, slots)

end

namespace Schema

/-- Read a document. What is wrong with the text behind the part that was read counts last. -/
def ofDocument (s : Schema) (document : Yaml.Document) : Except Yaml.Error s.Val := do
  let (value, _) ← (s.ofNode maxDepth ⟨document, []⟩ document.root).run 0
  match document.error with
  | some e => throw e
  | none => return value

def ofYaml (s : Schema) (text : String) : Except Yaml.Error s.Val :=
  match Yaml.Document.ofText text with
  | [] => .error .malformed
  | [document] => s.ofDocument document
  | document :: _ => do
    let _ ← s.ofDocument document
    throw .severalDocuments

end Schema

/-- The values of all documents of a text; documents that say nothing are left out. -/
def Json.ofYamlStream (text : String) : Except Yaml.Error (List Json) := do
  let values ← (Yaml.Document.ofText text).mapM fun document => Schema.any.ofDocument document
  return values.filter fun value => !value.isNull

end AddonLint
