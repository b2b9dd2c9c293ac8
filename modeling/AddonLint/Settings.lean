import AddonLint.Extraction.Duration
import AddonLint.Files.Tree
import AddonLint.Schema.Yaml
import AddonLint.Text.Blank

/-!
# Settings

How bundles are obtained and rules are run. Each value comes from the last of these that gives it:
the defaults, a configuration file, the environment variables, the options of the command line.
-/
namespace AddonLint

/-- Why there are no settings. -/
inductive SettingsError where
  | read (path : String) (source : IoError)
  | parse (path : String) (source : Yaml.Error)
  | invalidVariable (name value : String)
  | notPositive (key : String)
  deriving DecidableEq, Repr

namespace SettingsError

def message : SettingsError → String
  | .read path source => "failed to read config file " ++ path ++ ": " ++ source.message
  | .parse path source => "failed to parse config file " ++ path ++ ": " ++ source.message
  | .invalidVariable name value => "invalid value " ++ Text.quoted value ++ " for " ++ name
  | .notPositive key => key ++ " must be greater than zero"

def sourceMessage? : SettingsError → Option String
  | .read _ source => some source.message
  | .parse _ source => some source.message
  | _ => none

/-- The texts of the error and of what lies behind it. -/
def chain (e : SettingsError) : List String := e.message :: e.sourceMessage?.toList

end SettingsError

/-- The settings of a run. Without a cache the bundles lie below the addon directory. -/
structure Settings where
  bundleCache : Option String
  extractTimeout : UInt64
  jobs : UInt64
  deriving DecidableEq, Repr

namespace Settings

/-- The settings if nothing gives others. -/
def default : Settings := ⟨none, 120, 1⟩

instance : Inhabited Settings := ⟨default⟩

/-- Values that replace those of the settings. -/
structure Overrides where
  bundleCache : Option String
  extractTimeout : Option UInt64
  jobs : Option UInt64
  deriving DecidableEq, Repr

namespace Overrides

def empty : Overrides := ⟨none, none, none⟩

abbrev schema : Schema :=
  .record "struct FileConfig" true <|
    .cons "bundle_cache" .defaulted (.nullable (.text "path string")) <|
    .cons "extract_timeout_secs" .defaulted (.nullable (.natural "u64")) <|
    .cons "jobs" .defaulted (.nullable (.natural "usize")) .nil

def ofVals : schema.Val → Overrides
  | (bundleCache, extractTimeout, jobs, ()) => ⟨bundleCache, extractTimeout, jobs⟩

/-- Read a configuration file. A blank one gives no value. -/
def ofFile (fs : FileSystem) (path : String) : Except SettingsError Overrides :=
  match fs.readText path with
  | .error source => .error (.read path source)
  | .ok text =>
    if Text.trim text = "" then .ok empty
    else ((schema.ofYaml text).mapError (.parse path)).map ofVals

/-- The number in an environment variable. -/
def ofVariable (lookup : String → Option String) (name : String) :
    Except SettingsError (Option UInt64) :=
  match lookup name with
  | none => .ok none
  | some raw =>
    match Numeral.unsigned64? (Text.trim raw) with
    | some n => .ok (some n)
    | none => .error (.invalidVariable name raw)

def cacheVariable : String := "AMV_BUNDLE_CACHE"

def timeoutVariable : String := "AMV_EXTRACT_TIMEOUT_SECS"

def jobsVariable : String := "AMV_JOBS"

/-- The values of the environment variables. An empty cache does not count. -/
def ofVariables (lookup : String → Option String) : Except SettingsError Overrides := do
  let bundleCache := (lookup cacheVariable).filter (· ≠ "")
  let extractTimeout ← ofVariable lookup timeoutVariable
  let jobs ← ofVariable lookup jobsVariable
  return ⟨bundleCache, extractTimeout, jobs⟩

end Overrides

def merge (s : Settings) (o : Overrides) : Settings where
  bundleCache := o.bundleCache <|> s.bundleCache
  extractTimeout := o.extractTimeout.getD s.extractTimeout
  jobs := o.jobs.getD s.jobs

/-- The settings, unless one of the two numbers is zero. -/
def check (s : Settings) : Except SettingsError Settings :=
  if s.extractTimeout = 0 then .error (.notPositive "extract_timeout_secs")
  else if s.jobs = 0 then .error (.notPositive "jobs")
  else .ok s

/-- The settings of a configuration file, if one is given, and the environment variables. -/
def load (fs : FileSystem) (config : Option String) (lookup : String → Option String) :
    Except SettingsError Settings := do
  let file ← match config with
    | some path => Overrides.ofFile fs path
    | none => pure .empty
  let fromEnvironment ← Overrides.ofVariables lookup
  ((default.merge file).merge fromEnvironment).check

/-- The settings with some values replaced, if they are valid then. -/
def override (s : Settings) (o : Overrides) : Except SettingsError Settings := (s.merge o).check

/-- The cache for the addon in a directory. -/
def cacheFor (s : Settings) (directory : String) : String :=
  s.bundleCache.getD (Path.join directory "bundles")

/-- The time after which an extraction is given up. -/
def deadline (s : Settings) : Duration := .ofSeconds s.extractTimeout.toNat

end Settings

end AddonLint
