import AddonLint.Schema.Json

/-!
# Operator bundles

A bundle as unpacked from an index image: the package and channels it belongs to, and every
manifest document it ships.
-/
namespace AddonLint

/-- An operator bundle. -/
structure Bundle where
  name : String
  package : String
  channels : List String
  defaultChannel : Option String
  manifests : List Json

namespace Bundle

abbrev schema : Schema :=
  .record "struct Bundle" false <|
    .cons "name" .required .string <|
    .cons "package" .required .string <|
    .cons "channels" .required (.list .string) <|
    .cons "default_channel" .required (.nullable .string) <|
    .cons "manifests" .required (.list .any) .nil

def ofVals : schema.Val → Bundle
  | (name, package, channels, defaultChannel, manifests, ()) =>
    { name, package, channels, defaultChannel, manifests }

def toVals (b : Bundle) : schema.Val :=
  (b.name, b.package, b.channels, b.defaultChannel, b.manifests, ())

def ofJson (value : Json) : Except Fault Bundle := (schema.ofJson .direct value).map ofVals

def toJson (b : Bundle) : Json := schema.toJson b.toVals

/-- The kind of the manifest that describes the version of an operator. -/
def serviceVersionKind : String := "ClusterServiceVersion"

def isServiceVersion (manifest : Json) : Bool :=
  (manifest.field? "kind").bind Json.text? = some serviceVersionKind

def serviceVersions (b : Bundle) : List Json := b.manifests.filter isServiceVersion

/-- The manifest that describes the version of the operator, if there is exactly one. -/
def serviceVersion? (b : Bundle) : Option Json :=
  match b.serviceVersions with
  | [manifest] => some manifest
  | _ => none

end Bundle

end AddonLint
