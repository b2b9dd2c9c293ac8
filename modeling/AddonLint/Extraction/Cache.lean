import AddonLint.Extraction.Basic
import AddonLint.ImageReference
import AddonLint.Schema.Yaml
import AddonLint.Text.Fields

/-!
# Caches of unpacked index images

A cache has a directory for each index image, in it a directory for each bundle, and in there the
annotations of the bundle and its manifests. Every bundle that belongs to a package is read in full;
those of other packages than the operator's are left out then. All listings are read in the order
of their names.
-/
namespace AddonLint.Cache

/-- The annotation with the package that a bundle belongs to. -/
def packageAnnotation : String := "operators.operatorframework.io.bundle.package.v1"

def channelsAnnotation : String := "operators.operatorframework.io.bundle.channels.v1"

def defaultChannelAnnotation : String := "operators.operatorframework.io.bundle.channel.default.v1"

abbrev annotationsSchema : Schema :=
  .record "struct AnnotationsFile" false <| .cons "annotations" .defaulted (.dict .string) .nil

def manifestExtensions : List String := ["yaml", "yml", "json"]

def readText (fs : FileSystem) (path : String) : Except ExtractionError String :=
  (fs.readText path).mapError (.io path)

/-- The documents of a file with manifests. -/
def readManifestFile (fs : FileSystem) (path : String) : Except ExtractionError (List Json) := do
  (Json.ofYamlStream (← readText fs path)).mapError (.manifest path)

/-- The manifests in a directory, which need not exist. -/
def readManifests (fs : FileSystem) (directory : String) : Except ExtractionError (List Json) := do
  let files := (fs.names directory).filter fun name =>
    Path.hasExtension manifestExtensions name && fs.isFile (Path.join directory name)
  let documents ← files.mapM fun name => readManifestFile fs (Path.join directory name)
  return documents.flatten

/-- The annotations of a bundle, if it has any. -/
def readAnnotations (fs : FileSystem) (bundle : String) :
    Except ExtractionError (Option (Dict String)) :=
  let path := Path.join (Path.join bundle "metadata") "annotations.yaml"
  if !fs.isFile path then .ok none
  else do
    let vals ← (annotationsSchema.ofYaml (← readText fs path)).mapError (.manifest path)
    return some vals.1

/-- Read a bundle from its directory. There is none without the annotation for its package. -/
def readBundle (fs : FileSystem) (parent name : String) :
    Except ExtractionError (Option Bundle) := do
  let directory := Path.join parent name
  match ← readAnnotations fs directory with
  | none => return none
  | some annotations =>
    match annotations.get? packageAnnotation with
    | none => return none
    | some package =>
      let channels := ((annotations.get? channelsAnnotation).map Text.fields).getD []
      let manifests ← readManifests fs (Path.join directory "manifests")
      return some ⟨name, package, channels, annotations.get? defaultChannelAnnotation, manifests⟩

def imageDirectory (cache image : String) : String :=
  Path.join cache (ImageReference.cacheName image)

/-- Extract bundles from a cache. -/
def extract (fs : FileSystem) (cache : String) : Extractor := fun image operator => do
  let directory := imageDirectory cache image
  if !fs.isDirectory directory then throw (.indexImageNotFound image cache)
  let names := (fs.names directory).filter fun name => fs.isDirectory (Path.join directory name)
  let bundles ← names.mapM (readBundle fs directory)
  match bundles.filterMap fun b => b.filter fun b => b.package = operator with
  | [] => throw (.noBundles image operator)
  | found => return found

end AddonLint.Cache
