import AddonLint.Json.Printer
import AddonLint.Report.Basic
import AddonLint.Report.Instant

/-!
# Printed reports

A report is printed as text, with a line for each violation, a line for each hard error and a
summary line, or as an indented JSON document that also tells what was validated and when.
-/
namespace AddonLint

/-- The formats of reports and listings. -/
inductive OutputFormat where
  | text
  | json
  deriving DecidableEq, Repr

namespace OutputFormat

def ofName? (name : String) : Option OutputFormat :=
  if name = "text" then some .text else if name = "json" then some .json else none

end OutputFormat

namespace Report

def Failure.line (f : Failure) : String := "FAIL " ++ f.code ++ " " ++ f.name ++ ": " ++ f.message

def HardError.line (e : HardError) : String := "ERROR " ++ e.message

/-- The last line of a text report. -/
def summaryLine (r : Report) : String :=
  toString r.passed ++ "/" ++ toString r.executed ++ " rules passed"

/-- Lines, each with its line break. -/
def joinLines (lines : List String) : String := String.join (lines.map (· ++ "\n"))

def toText (r : Report) : String :=
  joinLines (r.failures.map Failure.line ++ r.hardErrors.map HardError.line ++ [r.summaryLine])

def Failure.toJson (f : Failure) : Json :=
  .obj [("code", .str f.code), ("name", .str f.name), ("message", .str f.message)]

def HardError.toJson (e : HardError) : Json :=
  .obj [("code", .str e.code), ("error", .str e.error.message)]

/-- The JSON document of a report on a subject. The version is that of an image set. -/
def toJson (r : Report) (subject : Subject) (generatedAt : Instant) : Json :=
  .obj [
    ("environment", .str subject.environment.name),
    ("version", .ofText? (subject.artifact.version?.map SemVer.text)),
    ("artifact", .str subject.artifact.label),
    ("index_image", .str subject.artifact.indexImage),
    ("generated_at", .str generatedAt.text),
    ("executed", .int r.executed),
    ("passed", .int r.passed),
    ("failures", .arr (r.failures.map Failure.toJson)),
    ("hard_errors", .arr (r.hardErrors.map HardError.toJson)),
    ("success", .bool r.isSuccess)]

def render (r : Report) (subject : Subject) (format : OutputFormat) (now : Instant) : String :=
  match format with
  | .text => r.toText
  | .json => (r.toJson subject now).pretty ++ "\n"

end Report

end AddonLint
