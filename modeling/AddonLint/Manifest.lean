import AddonLint.Environment
import AddonLint.ImageSet
import AddonLint.Metadata

/-!
# Addon manifests

What the directory of an addon declares for one environment.
-/
namespace AddonLint

/-- The metadata and the image sets of an addon in an environment. -/
structure Manifest where
  environment : Environment
  metadata : AddonMetadata
  imageSets : List ImageSet

end AddonLint
