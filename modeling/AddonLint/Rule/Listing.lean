import AddonLint.Report.Printer
import AddonLint.Rule.Registry

/-!
# Listings of rules

The registered rules as a table or as a JSON document.
-/
namespace AddonLint.Registry

/-- A text with spaces behind it, so that it has at least `width` characters. -/
def padTo (width : Nat) (s : String) : String :=
  s ++ String.ofList (List.replicate (width - s.length) ' ')

/-- The width of the column of names: the bytes of the longest one. -/
def nameWidth (rules : List Rule) : Nat := (rules.map fun r => r.name.utf8ByteSize).foldl max 0

def listLine (width : Nat) (r : Rule) : String :=
  r.code ++ "  " ++ padTo width r.name ++ "  " ++ r.description

def ruleJson (r : Rule) : Json :=
  .obj [("code", .str r.code), ("name", .str r.name), ("description", .str r.description)]

def list (registry : Registry) (format : OutputFormat) : String :=
  match format with
  | .text => Report.joinLines (registry.rules.map (listLine (nameWidth registry.rules)))
  | .json => (Json.arr (registry.rules.map ruleJson)).pretty ++ "\n"

end AddonLint.Registry
