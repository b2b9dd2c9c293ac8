import AddonLint.Decimal.Binary64
import AddonLint.Dict

/-!
# JSON values

The data model of manifests and of every document the program reads or writes: whole numbers stay
apart from floating-point ones, and an object lists its members. Objects built by `Json.object`
have each name once, in increasing order.
-/
namespace AddonLint

/-- A JSON value. -/
inductive Json where
  | null
  | bool (value : Bool)
  | int (value : Int)
  | float (value : Binary64)
  | str (value : String)
  | arr (items : List Json)
  | obj (members : List (String × Json))
  deriving Inhabited, Repr

namespace Json

/-- The object with the given members, the last one of a name winning. -/
def object (members : List (String × Json)) : Json := .obj (Dict.ofList members).entries

def field? : Json → String → Option Json
  | .obj members, name => members.lookup name
  | _, _ => none

def text? : Json → Option String
  | .str s => some s
  | _ => none

def isNull : Json → Bool
  | .null => true
  | _ => false

def texts (items : List String) : Json := .arr (items.map .str)

/-- A text, or `null`. -/
def ofText? : Option String → Json
  | some s => .str s
  | none => .null

end Json

end AddonLint
