import AddonLint.Text.Fields

/-!
# File paths

Paths are texts with slashes. Joining them normalises nothing, so that messages show what the
operator typed.
-/
namespace AddonLint.Path

/-- Whether a path starts at the root. -/
def isAbsolute (path : String) : Bool := path.toList.head? = some '/'

/-- A path below another one. An absolute path replaces the one before it. -/
def join (path more : String) : String :=
  if isAbsolute more ∨ path = "" then more
  else if path.toList.getLast? = some '/' then path ++ more
  else path ++ "/" ++ more

/-- The steps of a path. A slash at the end asks for a directory, like a step that stays there. -/
def steps (path : String) : List String :=
  let names := ((Text.cutAt '/' path.toList).filter (· ≠ [])).map String.ofList
  if names ≠ [] ∧ path.toList.getLast? = some '/' then names ++ ["."] else names

/-- Steps from the root without those that stay or go back. -/
def resolved (steps : List String) : List String :=
  (steps.foldl go []).reverse
where
  /-- Take a step from a place whose own steps are given, the last one first. -/
  go : (above : List String) → (name : String) → List String
    | above, "." => above
    | above, ".." => above.tail
    | above, name => name :: above

/-- The part of a file name behind its last point, unless the name starts with that point. -/
def extension? (name : String) : Option String :=
  let pieces := Text.cutAt '.' name.toList
  match pieces.getLast?, pieces.dropLast with
  | some _, [] => none
  | some _, [[]] => none
  | some last, _ => some (String.ofList last)
  | none, _ => none

def hasExtension (extensions : List String) (name : String) : Bool :=
  match extension? name with
  | some e => extensions.contains e
  | none => false

end AddonLint.Path
