import AddonLint.Subject

/-!
# Rules

A rule has a code, a name, a description and a runner, which sees nothing but the subject. A runner
answers with a verdict when it could judge the subject and with an error when it could not; one
that breaks off halfway counts as an error too.
-/
namespace AddonLint

/-- The judgement of a rule that ran to its end. The message explains a failure. -/
structure Verdict where
  passed : Bool
  message : String
  deriving DecidableEq, Repr

namespace Verdict

def pass : Verdict := ⟨true, ""⟩

def fail (message : String) : Verdict := ⟨false, message⟩

/-- Pass if a condition holds and fail with a message otherwise. -/
def check (passed : Bool) (message : String) : Verdict :=
  if passed then pass else fail message

end Verdict

/-- Why a rule reached no verdict. -/
inductive RuleError where
  | malformedInput (reason : String)
  | internal (reason : String)
  | crashed (reason : String)
  deriving DecidableEq, Repr

def RuleError.message : RuleError → String
  | .malformedInput reason => "malformed input: " ++ reason
  | .internal reason => "internal rule error: " ++ reason
  | .crashed reason => "rule panicked: " ++ reason

/-- What a runner leaves behind when it breaks off: a text or something else. -/
inductive Payload where
  | text (reason : String)
  | other
  deriving DecidableEq, Repr

/-- The reason that is reported for a runner that broke off. -/
def Payload.reason : Payload → String
  | .text reason => reason
  | .other => "non-string panic payload"

/-- How a runner ends. -/
inductive RunnerEnd where
  | verdict (v : Verdict)
  | error (e : RuleError)
  | crashed (payload : Payload)
  deriving DecidableEq, Repr

/-- What a rule comes to: its verdict or the reason that there is none. -/
abbrev Outcome := Except RuleError Verdict

/-- The outcome of a runner; breaking off is an error like any other. -/
def RunnerEnd.outcome : RunnerEnd → Outcome
  | .verdict v => .ok v
  | .error e => .error e
  | .crashed payload => .error (.crashed payload.reason)

/-- A check with its identity. -/
structure Rule where
  code : String
  name : String
  description : String
  runner : Subject → RunnerEnd

namespace Rule

def outcome (r : Rule) (subject : Subject) : Outcome := (r.runner subject).outcome

/-- A short text that identifies a rule. -/
def summary (r : Rule) : String :=
  "Rule \x7b code: " ++ Text.quoted r.code ++ ", name: " ++ Text.quoted r.name ++ ", .. \x7d"

end Rule

end AddonLint
