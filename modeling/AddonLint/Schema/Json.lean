import AddonLint.Schema.Basic
import AddonLint.Schema.Fault

/-!
# Reading and writing JSON values by schema

A value is read strictly: every part must have the kind that the schema demands. The members of an
object are looked at in the order of their names, and only then are missing fields reported, in
the order of the record. A record also reads a list of its fields' values in order.
-/
namespace AddonLint

/-- What kind of value this is, for error texts. -/
def Json.finding : Json → Finding
  | .null => .nothing
  | .bool b => .flag b
  | .int n => .integer n
  | .float x => .float x
  | .str s => .text s
  | .arr _ => .sequence
  | .obj _ => .map

/-- Whether a value is read from its document or from a copy set aside while a tag was looked up;
this decides how an overlong list is reported. -/
inductive Reading where
  | direct
  | buffered
  deriving DecidableEq, Repr

/-- The fault of a list with more items than the fields that took `used` of them. -/
def Reading.overlong (reading : Reading) (length used : Nat) : Fault :=
  match reading with
  | .direct => .wrongLength length "fewer elements in array"
  | .buffered =>
    .wrongLength length
      (toString used ++ (if used = 1 then " element" else " elements") ++ " in sequence")

/-- The words for a record that is read from a list. -/
def FieldList.expectedItems (fields : FieldList) (expected : String) : String :=
  expected ++ " with " ++ toString fields.length ++
    (if fields.length = 1 then " element" else " elements")

/-- Why the members of an object do not make a record: one that is there does not read, or one is
missing. -/
inductive Setback where
  | unreadable (key : String) (fault : Fault)
  | missing (fault : Fault)

namespace Setback

def fault : Setback → Fault
  | .unreadable _ f => f
  | .missing f => f

/-- Of two setbacks the one that is reported: an unreadable member before a missing one, the
lesser name first, and otherwise the earlier field. -/
def first : Setback → Setback → Setback
  | .unreadable k f, .unreadable k' f' =>
    if k' < k then .unreadable k' f' else .unreadable k f
  | .unreadable k f, .missing _ => .unreadable k f
  | .missing _, .unreadable k' f' => .unreadable k' f'
  | .missing f, .missing _ => .missing f

/-- Both results, or the setback that is reported. -/
def both {α β : Type} : Except Setback α → Except Setback β → Except Setback (α × β)
  | .ok a, .ok b => .ok (a, b)
  | .ok _, .error e => .error e
  | .error e, .ok _ => .error e
  | .error e, .error e' => .error (e.first e')

def member {α : Type} (members : List (String × Json)) (key : String)
    (read : Json → Except Fault α) : Except Setback α :=
  match members.lookup key with
  | some value => (read value).mapError (.unreadable key)
  | none => .error (.missing (.missingField key))

/-- The first of the members that a closed record does not know. -/
def refuseUnknown (known : List String) : List (String × Json) → Except Setback Unit
  | [] => .ok ()
  | (key, _) :: rest =>
    if key ∈ known then refuseUnknown known rest
    else .error (.unreadable key (.unknownField key known))

end Setback

mutual

def Schema.ofJson (reading : Reading) : (s : Schema) → Json → Except Fault s.Val
  | .text expected, value =>
    match value with
    | .str t => .ok t
    | other => .error (.wrongType other.finding expected)
  | .flag, value =>
    match value with
    | .bool b => .ok b
    | other => .error (.wrongType other.finding "a boolean")
  | .natural expected, value =>
    match value with
    | .int n =>
      if 0 ≤ n ∧ n < UInt64.size then .ok (UInt64.ofNat n.toNat)
      else .error (.wrongValue (.integer n) expected)
    | other => .error (.wrongType other.finding expected)
  | .any, value => .ok value
  | .nullable inner, value =>
    match value with
    | .null => .ok none
    | other => (inner.ofJson reading other).map some
  | .list item, value =>
    match value with
    | .arr items => items.mapM fun v => item.ofJson reading v
    | other => .error (.wrongType other.finding "a sequence")
  | .dict item, value =>
    match value with
    | .obj members =>
      (members.mapM fun m => (item.ofJson reading m.2).map fun v => (m.1, v)).map Dict.ofList
    | other => .error (.wrongType other.finding "a map")
  | .record expected closed fields, value =>
    match value with
    | .obj members =>
      let known : Except Setback Unit :=
        if closed then Setback.refuseUnknown fields.keys members else .ok ()
      match Setback.both known (fields.ofMembers reading members) with
      | .ok (_, vals) => .ok vals
      | .error setback => .error setback.fault
    | .arr items =>
      match fields.ofItems reading (fields.expectedItems expected) 0 items with
      | .ok (vals, []) => .ok vals
      | .ok (_, rest) =>
        .error (reading.overlong items.length (items.length - rest.length))
      | .error fault => .error fault
    | other => .error (.wrongType other.finding expected)
  | .openRecord expected fields, value =>
    match value with
    | .obj members =>
      match fields.ofMembers reading members with
      | .ok vals => .ok (vals, Dict.ofList (members.filter fun m => m.1 ∉ fields.keys))
      | .error setback => .error setback.fault
    | other => .error (.wrongType other.finding expected)

/-- Read the fields of a record from the members of an object. -/
def FieldList.ofMembers (reading : Reading) :
    (fs : FieldList) → List (String × Json) → Except Setback fs.Vals
  | .nil, _ => .ok ()
  | .cons key presence schema rest, members =>
    Setback.both
      (match members.lookup key with
        | some value => (schema.ofJson reading value).mapError (.unreadable key)
        | none =>
          match schema.absent? presence with
          | some v => .ok v
          | none => .error (.missing (.missingField key)))
      (rest.ofMembers reading members)

/-- Read the fields of a record from the items of a list, the first of them standing at
`position`, and leave the items after the last field. -/
def FieldList.ofItems (reading : Reading) (expected : String) :
    (fs : FieldList) → Nat → List Json → Except Fault (fs.Vals × List Json)
  | .nil, _, items => .ok ((), items)
  | .cons _ presence schema rest, position, [] =>
    match presence with
    | .required => .error (.wrongLength position expected)
    | _ =>
      (rest.ofItems reading expected (position + 1) []).map fun (vals, left) =>
        ((schema.default, vals), left)
  | .cons _ _ schema rest, position, item :: items =>
    match schema.ofJson reading item with
    | .error fault => .error fault
    | .ok v =>
      (rest.ofItems reading expected (position + 1) items).map fun (vals, left) =>
        ((v, vals), left)

end

mutual

/-- Write a value by schema. -/
def Schema.toJson : (s : Schema) → s.Val → Json
  | .text _, t => .str t
  | .flag, b => .bool b
  | .natural _, n => .int n.toNat
  | .any, value => value
  | .nullable _, none => .null
  | .nullable inner, some v => inner.toJson v
  | .list item, vs => .arr (vs.map fun v => item.toJson v)
  | .dict item, d => .obj (d.entries.map fun e => (e.1, item.toJson e.2))
  | .record _ _ fields, vals => .obj (fields.toMembers vals)
  | .openRecord _ fields, (vals, extra) => .obj (fields.toMembers vals ++ extra.entries)

/-- Write the fields of a record, leaving out the optional ones without a value. -/
def FieldList.toMembers : (fs : FieldList) → fs.Vals → List (String × Json)
  | .nil, _ => []
  | .cons key presence schema rest, (v, vals) =>
    match presence, schema.toJson v with
    | .optional, .null => rest.toMembers vals
    | _, value => (key, value) :: rest.toMembers vals

end

/-- The members of an object that a value is written as. -/
def Schema.fieldMembers (s : Schema) (v : s.Val) : List (String × Json) :=
  match s.toJson v with
  | .obj members => members
  | _ => []

end AddonLint
