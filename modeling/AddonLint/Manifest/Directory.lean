import AddonLint.Files.Tree
import AddonLint.Manifest
import AddonLint.Schema.Yaml

/-!
# Addon directories

The metadata of an addon lie in `metadata/<environment>/addon.yaml` below its directory, and its
image sets in the YAML files directly in `addonimagesets/<environment>`, which need not exist. Image
sets are read in the order of their file names.
-/
namespace AddonLint

/-- Why an addon directory could not be loaded. -/
inductive LoadError where
  | fileNotFound (path : String)
  | yaml (path : String) (source : Yaml.Error)
  | io (path : String) (source : IoError)
  deriving DecidableEq, Repr

def LoadError.message : LoadError → String
  | .fileNotFound path => "required file not found: " ++ path
  | .yaml path source => "failed to parse YAML at " ++ path ++ ": " ++ source.message
  | .io path source => "failed to read " ++ path ++ ": " ++ source.message

namespace Manifest

def metadataPath (directory : String) (environment : Environment) : String :=
  Path.join (Path.join (Path.join directory "metadata") environment.name) "addon.yaml"

def imageSetDirectory (directory : String) (environment : Environment) : String :=
  Path.join (Path.join directory "addonimagesets") environment.name

def imageSetExtensions : List String := ["yaml", "yml"]

/-- The files of the image sets, in the order of their names. -/
def imageSetPaths (fs : FileSystem) (directory : String) (environment : Environment) :
    List String :=
  let parent := imageSetDirectory directory environment
  ((fs.names parent).filter fun name =>
    Path.hasExtension imageSetExtensions name && fs.isFile (Path.join parent name)).map
      (Path.join parent)

def readFile (fs : FileSystem) (schema : Schema) (path : String) : Except LoadError schema.Val :=
  match fs.readText path with
  | .error .notFound => .error (.fileNotFound path)
  | .error source => .error (.io path source)
  | .ok text => (schema.ofYaml text).mapError (.yaml path)

/-- Load the manifest of an addon directory. -/
def load (fs : FileSystem) (directory : String) (environment : Environment) :
    Except LoadError Manifest := do
  let metadata ← readFile fs AddonMetadata.schema (metadataPath directory environment)
  let sets ← (imageSetPaths fs directory environment).mapM (readFile fs ImageSet.schema)
  return ⟨environment, .ofVals metadata, sets.map ImageSet.ofVals⟩

end Manifest

end AddonLint
