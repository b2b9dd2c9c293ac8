import AddonLint.ConfigError
import AddonLint.SemVer

/-!
# Version requests

An operator asks for the version an addon declares, for the latest one, or for an exact one.
-/
namespace AddonLint

/-- Which version of an addon to validate. -/
inductive VersionRequest where
  | declared
  | latest
  | exact (version : SemVer)
  deriving DecidableEq, Repr

namespace VersionRequest

/-- Read a request: nothing, `latest`, or a plain version. -/
def parse (s : String) : Except ConfigError VersionRequest :=
  if s = "" then .ok .declared
  else if s = "latest" then .ok .latest
  else
    match SemVer.parsePlain? s with
    | some v => .ok (.exact v)
    | none => .error (.invalidVersion s)

def text : VersionRequest → String
  | .declared => "<default>"
  | .latest => "latest"
  | .exact v => v.text

end VersionRequest

end AddonLint
