import AddonLint.Rule.Basic

/-!
# Rule registries

A registry holds rules by code. A code is taken once and for all: registering it again is refused,
so that no rule can hide another.
-/
namespace AddonLint

/-- Rules by code. -/
abbrev Registry := Dict Rule

namespace Registry

def isCodeChar (c : Char) : Bool :=
  Numeral.isDigit c || ('a' ≤ c && c ≤ 'z') || ('A' ≤ c && c ≤ 'Z')

/-- A code is a non-empty text of ASCII letters and digits. -/
def isValidCode (code : String) : Bool := code ≠ "" && code.toList.all isCodeChar

/-- Add a rule. -/
def register (registry : Registry) (rule : Rule) : Except ConfigError Registry :=
  if !isValidCode rule.code then .error (.invalidRuleCode rule.code)
  else if registry.contains rule.code then .error (.duplicateRuleCode rule.code)
  else .ok (registry.insert rule.code rule)

/-- Add rules one after the other, up to the first that is refused: the registry with the rules
added before it, and its refusal. -/
def registerAll (registry : Registry) : List Rule → Registry × Option ConfigError
  | [] => (registry, none)
  | rule :: rest =>
    match registry.register rule with
    | .ok registry => registerAll registry rest
    | .error refusal => (registry, some refusal)

/-- The registered rules in the order of their codes. -/
def rules (registry : Registry) : List Rule := registry.values

end Registry

end AddonLint
