import AddonLint.Schema.Fault

/-!
# Errors of YAML texts

A text may be malformed, or hold something else than expected. The place of a fault is a path of
keys and positions from the root of the document.
-/
namespace AddonLint.Yaml

/-- A step into a document: to the value of a key, to an item, or to the value of a key that is no
plain text. -/
inductive Step where
  | key (name : String)
  | item (index : Nat)
  | other
  deriving DecidableEq, Repr

/-- A place in a document; the last step comes first. -/
abbrev Path := List Step

def Path.text : Path → String
  | [] => "."
  | .item i :: parent => Path.text parent ++ "[" ++ toString i ++ "]"
  | step :: parent =>
    let name := match step with
      | .key k => k
      | _ => "?"
    match parent with
    | [] => name
    | _ => Path.text parent ++ "." ++ name

/-- Why a text could not be read. -/
inductive Error where
  | malformed
  | unknownAnchor
  | severalDocuments
  | tooDeep
  | tooManyJumps
  | fault (path : Path) (cause : Fault)
  deriving DecidableEq, Repr

/-- The text of an error. The root is not named. -/
def Error.message : Error → String
  | .malformed => "syntax error"
  | .unknownAnchor => "unknown anchor"
  | .severalDocuments =>
    "deserializing from YAML containing more than one document is not supported"
  | .tooDeep => "recursion limit exceeded"
  | .tooManyJumps => "repetition limit exceeded"
  | .fault path cause =>
    let place := path.text
    if place = "." then cause.message .yaml else place ++ ": " ++ cause.message .yaml

end AddonLint.Yaml
