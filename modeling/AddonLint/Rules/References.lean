import AddonLint.ImageReference
import AddonLint.Rules.Membership

/-!
# Rules on image references

The test harness is an image on quay.io, and the index image lies in the addon organisation there.
-/
namespace AddonLint.Rules

def judgeTestHarness (addon : AddonMetadata) : Verdict :=
  if addon.testHarness = "" then notFound "testHarness" addon
  else
    .check (ImageReference.isQuayImage addon.testHarness)
      ("`testHarness` " ++ Text.quoted addon.testHarness ++
        " is not a quay.io image reference under the addon metadata of " ++ addon.id)

/-- The test harness is an image on quay.io. -/
def testHarness : Rule where
  code := "AM0005"
  name := "test_harness"
  description :=
    "Ensure that `testHarness` is a quay.io/<org>/<repo> image reference with an optional tag " ++
      "or digest"
  runner subject := .verdict (judgeTestHarness subject.addon)

/-- What is wrong with the place of the index image. -/
def indexImageProblem? (artifact : Artifact) : Option String :=
  if ImageReference.isIndexImage artifact.indexImage then none
  else
    some ("index image " ++ Text.quoted artifact.indexImage ++ " does not match " ++
      Text.quoted ImageReference.indexImagePattern)

/-- An image set has to list its related images. -/
def relatedImagesProblem? (artifact : Artifact) : Option String :=
  match artifact with
  | .imageSet set =>
    if set.relatedImages.isEmpty then
      some ("image set " ++ set.name ++ " lists no `relatedImages`")
    else none
  | .staticIndexImage _ => none

def judgeIndexImage (artifact : Artifact) : Verdict :=
  let problems := (indexImageProblem? artifact).toList ++ (relatedImagesProblem? artifact).toList
  .check problems.isEmpty (String.intercalate "; " problems)

/-- The index image lies in the addon organisation, and an image set lists its related images. -/
def indexImage : Rule where
  code := "AM0007"
  name := "index_image_ref"
  description :=
    "Ensure that the index image is hosted under quay.io/osd-addons and that image sets list " ++
      "their related images"
  runner subject := .verdict (judgeIndexImage subject.artifact)

end AddonLint.Rules
