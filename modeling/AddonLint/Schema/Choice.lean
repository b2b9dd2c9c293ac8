import AddonLint.Schema.Json

/-!
# Named options in JSON values

One of a few named options is written as its name. An object whose only key is the name, with
`null` as its value, is read as well.
-/
namespace AddonLint.Json

def optionOfName {α : Type} (names : List String) (ofName? : String → Option α) (name : String) :
    Except Fault α :=
  match ofName? name with
  | some option => .ok option
  | none => .error (.unknownVariant name names)

/-- Read one of some named options. -/
def choice {α : Type} (names : List String) (ofName? : String → Option α) :
    Json → Except Fault α
  | .str name => optionOfName names ofName? name
  | .obj [(name, content)] => do
    let option ← optionOfName names ofName? name
    match content with
    | .null => return option
    | other => throw (.wrongType other.finding "unit")
  | .obj _ => .error (.wrongValue .map "map with a single key")
  | other => .error (.wrongType other.finding "string or map")

end AddonLint.Json
