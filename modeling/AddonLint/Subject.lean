import AddonLint.Artifact
import AddonLint.Bundle
import AddonLint.Environment.Json
import AddonLint.Metadata

/-!
# Subjects

Everything the rules see of an addon: its metadata for one environment, the artifact that was
selected and the bundles of the artifact's index image.
-/
namespace AddonLint

/-- What the rules are run on. -/
structure Subject where
  environment : Environment
  addon : AddonMetadata
  artifact : Artifact
  bundles : List Bundle

namespace Subject

def expected : String := "struct MetaBundle"

def bundlesOfJson (value : Json) : Except Fault (List Bundle) :=
  ((Schema.list Bundle.schema).ofJson .direct value).map fun bs => bs.map Bundle.ofVals

def ofMembers (members : List (String × Json)) : Except Setback Subject := do
  let (environment, addon, artifact, bundles) ←
    Setback.both (Setback.member members "environment" Environment.ofJson) <|
    Setback.both (Setback.member members "addon" AddonMetadata.ofJson) <|
    Setback.both (Setback.member members "artifact" Artifact.ofJson)
      (Setback.member members "bundles" bundlesOfJson)
  return ⟨environment, addon, artifact, bundles⟩

/-- The item at a position of a list that stands for a subject. -/
def item (position : Nat) : List Json → Except Fault (Json × List Json)
  | [] => .error (.wrongLength position (expected ++ " with 4 elements"))
  | value :: rest => .ok (value, rest)

def ofItems (items : List Json) : Except Fault Subject := do
  let (value, rest) ← item 0 items
  let environment ← Environment.ofJson value
  let (value, rest) ← item 1 rest
  let addon ← AddonMetadata.ofJson value
  let (value, rest) ← item 2 rest
  let artifact ← Artifact.ofJson value
  let (value, rest) ← item 3 rest
  let bundles ← bundlesOfJson value
  if rest.isEmpty then return ⟨environment, addon, artifact, bundles⟩
  else throw (Reading.direct.overlong items.length 4)

def ofJson : Json → Except Fault Subject
  | .obj members =>
    match ofMembers members with
    | .ok subject => .ok subject
    | .error setback => .error setback.fault
  | .arr items => ofItems items
  | other => .error (.wrongType other.finding expected)

def toJson (s : Subject) : Json :=
  .obj [("environment", s.environment.toJson), ("addon", s.addon.toJson),
    ("artifact", s.artifact.toJson), ("bundles", .arr (s.bundles.map Bundle.toJson))]

/-- A subject whose addon declares nothing but its two required fields and comes as an index image
without bundles. -/
def ofNames (id operatorName indexImage : String) : Subject :=
  ⟨.stage, .ofNames id operatorName, .staticIndexImage indexImage, []⟩

end Subject

end AddonLint
