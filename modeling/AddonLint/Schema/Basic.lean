import AddonLint.Json.Basic

/-!
# Schemas

A schema describes the shape of a document: texts, flags, numbers, lists, dictionaries and records
whose fields have names. It determines the type of the values that such a document stands for, so
that reading and writing are defined once for all schemas.
-/
namespace AddonLint

/-- When a field may be absent: never, with the default value of its schema instead, or so that
the default value is not written either. -/
inductive Presence where
  | required
  | defaulted
  | optional
  deriving DecidableEq, Repr

mutual

/-- The shape of a document. Where a text, a number or a record is expected, the schema carries
the words for it in error texts. A closed record refuses fields it does not know; an open record
keeps them. -/
inductive Schema where
  | text (expected : String)
  | flag
  | natural (expected : String)
  | any
  | nullable (inner : Schema)
  | list (item : Schema)
  | dict (item : Schema)
  | record (expected : String) (closed : Bool) (fields : FieldList)
  | openRecord (expected : String) (fields : FieldList)

/-- The fields of a record in their order. -/
inductive FieldList where
  | nil
  | cons (key : String) (presence : Presence) (schema : Schema) (rest : FieldList)

end

mutual

/-- The values that documents of a schema stand for. -/
@[reducible] def Schema.Val : Schema → Type
  | .text _ => String
  | .flag => Bool
  | .natural _ => UInt64
  | .any => Json
  | .nullable inner => Option inner.Val
  | .list item => List item.Val
  | .dict item => Dict item.Val
  | .record _ _ fields => fields.Vals
  | .openRecord _ fields => fields.Vals × Dict Json

@[reducible] def FieldList.Vals : FieldList → Type
  | .nil => Unit
  | .cons _ _ schema rest => schema.Val × rest.Vals

end

mutual

/-- The value of an absent field that has a default. -/
def Schema.default : (s : Schema) → s.Val
  | .text _ => ""
  | .flag => false
  | .natural _ => (0 : UInt64)
  | .any => Json.null
  | .nullable _ => none
  | .list _ => []
  | .dict _ => Dict.empty
  | .record _ _ fields => fields.defaults
  | .openRecord _ fields => (fields.defaults, Dict.empty)

def FieldList.defaults : (fs : FieldList) → fs.Vals
  | .nil => ()
  | .cons _ _ schema rest => (schema.default, rest.defaults)

end

def FieldList.keys : FieldList → List String
  | .nil => []
  | .cons key _ _ rest => key :: rest.keys

def FieldList.length : FieldList → Nat
  | .nil => 0
  | .cons _ _ _ rest => rest.length + 1

/-- The value that an absent field stands for, if it may be absent. A nullable field may always
be. -/
def Schema.absent? (presence : Presence) (s : Schema) : Option s.Val :=
  match presence, s with
  | .required, .nullable _ => some none
  | .required, _ => none
  | _, s => some s.default

/-- Plain text. -/
abbrev Schema.string : Schema := .text "a string"

end AddonLint
