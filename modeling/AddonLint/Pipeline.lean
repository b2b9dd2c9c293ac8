import AddonLint.Extraction.Basic
import AddonLint.Manifest.Directory
import AddonLint.Resolution
import AddonLint.Run

/-!
# Pipeline of a validation

From a request to a report: load the manifest, select the artifact, extract its bundles and run the
rules. The first error ends the pipeline, and no rule runs then. The loader and the extractor may
have effects of their own, which happen when they are called and not otherwise.
-/
namespace AddonLint

/-- Why there is no report. -/
inductive ValidateError where
  | config (cause : ConfigError)
  | load (cause : LoadError)
  | resolution (cause : ResolutionError)
  | extraction (cause : ExtractionError)
  deriving Repr

namespace ValidateError

def causeMessage : ValidateError → String
  | .config cause => cause.message
  | .load cause => cause.message
  | .resolution cause => cause.message
  | .extraction cause => cause.message

/-- The text of the error: the stage and the cause. -/
def message : ValidateError → String
  | .config cause => "configuration error: " ++ cause.message
  | .load cause => "metadata load error: " ++ cause.message
  | .resolution cause => "resolution error: " ++ cause.message
  | .extraction cause => "extraction error: " ++ cause.message

/-- The text of what lies behind the cause, a YAML text or a file. -/
def sourceMessage? : ValidateError → Option String
  | .load (.yaml _ source) => some source.message
  | .load (.io _ source) => some source.message
  | .extraction (.manifest _ source) => some source.message
  | .extraction (.io _ source) => some source.message
  | _ => none

/-- The texts of the error and of everything behind it. -/
def chain (e : ValidateError) : List String :=
  [e.message, e.causeMessage] ++ e.sourceMessage?.toList

end ValidateError

/-- The subject of a manifest for a request, with an extractor that may have effects. -/
def Manifest.resolveM {m : Type → Type} [Monad m] (manifest : Manifest) (request : VersionRequest)
    (extractor : (image operator : String) → m Extracted) : ExceptT ValidateError m Subject := do
  let artifact ← (manifest.select request).mapError ValidateError.resolution
  let bundles ←
    ExceptT.adapt .extraction (extractor artifact.indexImage manifest.metadata.operatorName)
  return ⟨manifest.environment, manifest.metadata, artifact, bundles⟩

def Manifest.resolve (manifest : Manifest) (request : VersionRequest) (extractor : Extractor) :
    Except ValidateError Subject :=
  Manifest.resolveM (m := Id) manifest request extractor

/-- Where manifests and bundles come from, and how rules are run. -/
structure Pipeline where
  load : (directory : String) → Environment → Except LoadError Manifest
  extractor : Extractor
  registry : Registry
  jobs : Nat

/-- A subject and the report on it. -/
structure Validation where
  subject : Subject
  report : Report

/-- Validate the addon in a directory, with a loader and an extractor that may have effects. -/
def Pipeline.runM {m : Type → Type} [Monad m]
    (load : (directory : String) → Environment → m (Except LoadError Manifest))
    (extractor : (image operator : String) → m Extracted) (registry : Registry) (jobs : Nat)
    (directory : String) (environment : Environment) (request : VersionRequest)
    (filter : Filter) : ExceptT ValidateError m Validation := do
  let manifest ← ExceptT.adapt .load (load directory environment)
  let subject ← manifest.resolveM request extractor
  return ⟨subject, Run.report jobs filter registry subject⟩

def Pipeline.run (p : Pipeline) (directory : String) (environment : Environment)
    (request : VersionRequest) (filter : Filter) : Except ValidateError Validation :=
  Pipeline.runM (m := Id) p.load p.extractor p.registry p.jobs directory environment request filter

end AddonLint
