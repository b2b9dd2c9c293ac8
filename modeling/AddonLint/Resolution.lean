import AddonLint.Artifact
import AddonLint.Manifest
import AddonLint.Text.Blank
import AddonLint.VersionRequest

/-!
# Resolution of version requests

A request picks exactly one artifact of a manifest or says why it cannot. An explicit request looks
for the image set of its version; a request for the declared version goes by the metadata, which
name a version or a fixed index image. All image set names have to be well formed.
-/
namespace AddonLint

/-- Why a request picks no artifact. -/
inductive ResolutionError where
  | noDefaultVersion (environment : Environment)
  | invalidDeclaredVersion (value : String)
  | noImageSets (environment : Environment)
  | notFound (environment : Environment) (version : String)
  | ambiguous (environment : Environment) (version : String) (names : List String)
  | malformedImageSetName (name : String)
  deriving DecidableEq, Repr

def ResolutionError.message : ResolutionError → String
  | .noDefaultVersion env =>
    "no version requested and the " ++ env.name ++
      " metadata declares neither addonImageSetVersion nor indexImage"
  | .invalidDeclaredVersion value =>
    "declared addonImageSetVersion " ++ Text.quoted value ++
      " must be 'latest' or match 'MAJOR.MINOR.PATCH'"
  | .noImageSets env => "no image sets declared for environment " ++ env.name
  | .notFound env version =>
    "no image set found for environment " ++ env.name ++ " and version " ++ version
  | .ambiguous env version names =>
    "ambiguous image sets for environment " ++ env.name ++ " and version " ++ version ++ ": " ++
      String.intercalate ", " names
  | .malformedImageSetName name =>
    "image set name " ++ Text.quoted name ++ " does not match '<addon>.v<MAJOR.MINOR.PATCH>'"

namespace Resolution

/-- A version to look for among the image sets. -/
inductive Target where
  | latest
  | exact (version : SemVer)
  deriving DecidableEq, Repr

/-- A declared text without surrounding blanks, if anything is left of it. -/
def declared? (field : Option String) : Option String :=
  (field.map Text.trim).filter (· ≠ "")

def declaredTarget (value : String) : Except ResolutionError Target :=
  match VersionRequest.parse value with
  | .ok .latest => .ok .latest
  | .ok (.exact v) => .ok (.exact v)
  | .ok .declared | .error _ => .error (.invalidDeclaredVersion value)

/-- The image sets with the versions that their names encode. -/
def versioned : List ImageSet → Except ResolutionError (List (SemVer × ImageSet))
  | [] => .ok []
  | set :: rest =>
    match set.version? with
    | none => .error (.malformedImageSetName set.name)
    | some v => (versioned rest).map ((v, set) :: ·)

/-- The only image set of a version. -/
def unique (environment : Environment) (version : SemVer) (sets : List (SemVer × ImageSet)) :
    Except ResolutionError Artifact :=
  match (sets.filter fun s => s.1 = version).map (·.2) with
  | [] => .error (.notFound environment version.text)
  | [set] => .ok (.imageSet set)
  | many => .error (.ambiguous environment version.text (many.map (·.name)))

def ofTarget (manifest : Manifest) (target : Target) : Except ResolutionError Artifact := do
  let sets ← versioned manifest.imageSets
  match target with
  | .exact v => unique manifest.environment v sets
  | .latest =>
    match SemVer.greatest? (sets.map (·.1)) with
    | none => throw (.noImageSets manifest.environment)
    | some v => unique manifest.environment v sets

/-- The artifact that the metadata declare. -/
def ofDeclaration (manifest : Manifest) : Except ResolutionError Artifact :=
  match declared? manifest.metadata.addonImageSetVersion with
  | some value => do ofTarget manifest (← declaredTarget value)
  | none =>
    match declared? manifest.metadata.indexImage with
    | some image => .ok (.staticIndexImage image)
    | none => .error (.noDefaultVersion manifest.environment)

end Resolution

/-- The artifact of a request. -/
def Manifest.select (manifest : Manifest) : VersionRequest → Except ResolutionError Artifact
  | .declared => Resolution.ofDeclaration manifest
  | .latest => Resolution.ofTarget manifest .latest
  | .exact v => Resolution.ofTarget manifest (.exact v)

end AddonLint
