import AddonLint.Extraction.Cache
import AddonLint.Extraction.Deadline
import AddonLint.Pipeline
import AddonLint.Report.Printer
import AddonLint.Rules.Builtin
import AddonLint.Settings

/-!
# Validation of an addon directory

The operator's input is checked before anything is read: the directory, the environment, the
version and the lists of rules, in this order. Then come the settings, and then the pipeline. The
first error ends the validation without output.
-/
namespace AddonLint

/-- What an operator asks for. -/
structure ValidateRequest where
  directory : String
  environment : String
  version : String
  disabled : String
  enabled : String
  overrides : Settings.Overrides
  format : OutputFormat
  deriving DecidableEq, Repr

namespace ValidateRequest

/-- The request for a directory that leaves the rest to the defaults. -/
def ofDirectory (directory : String) : ValidateRequest :=
  { directory, environment := Environment.stage.name, version := "", disabled := "", enabled := "",
    overrides := .empty, format := .text }

end ValidateRequest

/-- The operator's input once it has been checked. -/
structure Prepared where
  directory : String
  environment : Environment
  version : VersionRequest
  registry : Registry
  filter : Filter

namespace Prepared

/-- A directory made absolute, if it is one. -/
def checkDirectory (fs : FileSystem) (directory : String) : Except ConfigError String := do
  let absolute ←
    (fs.absolute directory).mapError fun e => .workingDirectory directory e.message
  if fs.isDirectory absolute then return absolute else throw (.notADirectory directory)

def ofRequest (fs : FileSystem) (r : ValidateRequest) : Except ConfigError Prepared := do
  let directory ← checkDirectory fs r.directory
  let environment ← Environment.parse r.environment
  let version ← VersionRequest.parse r.version
  let registry ← Rules.registry
  let filter ← Filter.parse r.disabled r.enabled registry
  return ⟨directory, environment, version, registry, filter⟩

end Prepared

/-- Why a validation ended without a report: the stage and the cause. -/
inductive RunError where
  | preparing (cause : ValidateError)
  | settings (cause : SettingsError)
  | validating (directory : String) (cause : ValidateError)
  deriving Repr

/-- The text of an error: what was being done, and everything that lies behind it. -/
def RunError.message : RunError → String
  | .preparing cause =>
    String.intercalate ": " ("a fatal error occurred while preparing validations" :: cause.chain)
  | .settings cause => String.intercalate ": " ("invalid configuration" :: cause.chain)
  | .validating directory cause =>
    String.intercalate ": " (("cannot validate " ++ directory) :: cause.chain)

/-- What a program leaves behind: its exit code, its standard output and the text of an error. -/
structure Output where
  exit : Nat
  text : String
  error : Option String
  deriving DecidableEq, Repr

namespace Validate

/-- Success only if every selected rule passed. -/
def exitCode (report : Report) : Nat := if report.isSuccess then 0 else 1

def settings (fs : FileSystem) (config : Option String) (lookup : String → Option String)
    (r : ValidateRequest) : Except SettingsError Settings := do
  (← Settings.load fs config lookup).override r.overrides

def validation (fs : FileSystem) (config : Option String) (lookup : String → Option String)
    (r : ValidateRequest) : Except RunError Validation := do
  let prepared ← (Prepared.ofRequest fs r).mapError fun e => .preparing (.config e)
  let settings ← (settings fs config lookup r).mapError .settings
  let pipeline : Pipeline :=
    { load := Manifest.load fs
      extractor :=
        Deadline.inTime (Cache.extract fs (settings.cacheFor prepared.directory)) settings.deadline
      registry := prepared.registry
      jobs := settings.jobs.toNat }
  (pipeline.run prepared.directory prepared.environment prepared.version prepared.filter).mapError
    (.validating prepared.directory)

def run (fs : FileSystem) (config : Option String) (lookup : String → Option String)
    (now : Instant) (r : ValidateRequest) : Except RunError Output := do
  let ⟨subject, report⟩ ← validation fs config lookup r
  return ⟨exitCode report, report.render subject r.format now, none⟩

end Validate

end AddonLint
