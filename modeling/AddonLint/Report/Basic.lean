import AddonLint.Rule.Basic

/-!
# Reports

A report counts the rules that ran and the rules that passed, and lists every violation and every
rule that reached no verdict, each in the order of the codes.
-/
namespace AddonLint

namespace Report

/-- A rule that the subject violates. -/
structure Failure where
  code : String
  name : String
  message : String
  deriving DecidableEq, Repr

/-- A rule that reached no verdict. -/
structure HardError where
  code : String
  error : RuleError
  deriving DecidableEq, Repr

def HardError.message (e : HardError) : String := e.code ++ ": " ++ e.error.message

end Report

open Report in
/-- What the rules say about a subject. -/
structure Report where
  executed : Nat
  passed : Nat
  failures : List Failure
  hardErrors : List HardError
  deriving DecidableEq, Repr

namespace Report

/-- No violation, and no rule without a verdict. -/
def isSuccess (r : Report) : Bool := r.failures.isEmpty && r.hardErrors.isEmpty

/-- A rule and what it came to. -/
structure Entry where
  rule : Rule
  outcome : Outcome

namespace Entry

/-- The entry of a rule that is run on a subject. -/
def ofRule (subject : Subject) (rule : Rule) : Entry := ⟨rule, rule.outcome subject⟩

def isPass (e : Entry) : Bool :=
  match e.outcome with
  | .ok v => v.passed
  | .error _ => false

def failure? (e : Entry) : Option Failure :=
  match e.outcome with
  | .ok v => if v.passed then none else some ⟨e.rule.code, e.rule.name, v.message⟩
  | .error _ => none

def hardError? (e : Entry) : Option HardError :=
  match e.outcome with
  | .ok _ => none
  | .error error => some ⟨e.rule.code, error⟩

end Entry

/-- The report of entries in any order. -/
def ofEntries (entries : List Entry) : Report :=
  let entries := entries.mergeSort fun a b => a.rule.code ≤ b.rule.code
  { executed := entries.length
    passed := entries.countP Entry.isPass
    failures := entries.filterMap Entry.failure?
    hardErrors := entries.filterMap Entry.hardError? }

end Report

end AddonLint
