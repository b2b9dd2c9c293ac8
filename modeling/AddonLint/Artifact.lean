import AddonLint.ImageSet

/-!
# Artifacts

What a run validates: an image set of the addon, or the fixed index image that its metadata names.
In a JSON value the member `source` says which of the two it is.
-/
namespace AddonLint

/-- The artifact of a run. -/
inductive Artifact where
  | imageSet (set : ImageSet)
  | staticIndexImage (indexImage : String)

namespace Artifact

/-- The index image whose bundles belong to the artifact. -/
def indexImage : Artifact → String
  | .imageSet set => set.indexImage
  | .staticIndexImage image => image

/-- The image set, if the artifact is one. -/
def imageSet? : Artifact → Option ImageSet
  | .imageSet set => some set
  | .staticIndexImage _ => none

/-- The name of the artifact in reports. -/
def label : Artifact → String
  | .imageSet set => set.name
  | .staticIndexImage image => image

/-- The version that the artifact's name encodes. -/
def version? (a : Artifact) : Option SemVer := a.imageSet?.bind ImageSet.version?

/-- The two sources of artifacts. -/
inductive Source where
  | imageSet
  | staticIndexImage
  deriving DecidableEq, Repr

namespace Source

def all : List Source := [.imageSet, .staticIndexImage]

def name : Source → String
  | .imageSet => "image_set"
  | .staticIndexImage => "static_index_image"

def ofJson : Json → Except Fault Source
  | .str s =>
    match all.find? fun source => source.name = s with
    | some source => .ok source
    | none => .error (.unknownVariant s (all.map name))
  | other => .error (.wrongType other.finding "variant identifier")

end Source

def sourceKey : String := "source"

/-- The shape of a fixed index image. -/
abbrev staticSchema : Schema :=
  .record "struct variant Artifact::StaticIndexImage" false <|
    .cons "index_image" .required .string .nil

/-- The artifact of a source and the rest of its value, which was set aside until the source was
known. -/
def ofContent (source : Source) (content : Json) : Except Fault Artifact :=
  match source with
  | .imageSet => (ImageSet.ofJson .buffered content).map .imageSet
  | .staticIndexImage =>
    (staticSchema.ofJson .buffered content).map fun v => .staticIndexImage v.1

def ofJson : Json → Except Fault Artifact
  | .obj members =>
    match members.lookup sourceKey with
    | none => .error (.missingField sourceKey)
    | some tag => do
      let source ← Source.ofJson tag
      ofContent source (.obj (members.filter fun m => m.1 ≠ sourceKey))
  | .arr [] => .error (.missingField sourceKey)
  | .arr (tag :: rest) => do
    let source ← Source.ofJson tag
    ofContent source (.arr rest)
  | other => .error (.wrongType other.finding "internally tagged enum Artifact")

def toJson : Artifact → Json
  | .imageSet set =>
    .obj ((sourceKey, .str Source.imageSet.name) :: ImageSet.schema.fieldMembers set.toVals)
  | .staticIndexImage image =>
    .obj ((sourceKey, .str Source.staticIndexImage.name) :: staticSchema.fieldMembers (image, ()))

end Artifact

end AddonLint
