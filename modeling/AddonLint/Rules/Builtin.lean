import AddonLint.Rule.Registry
import AddonLint.Rules.Icon
import AddonLint.Rules.Naming
import AddonLint.Rules.References
import AddonLint.Rules.ServiceVersion

/-!
# The built-in rules

All rules that come with the program, by increasing code.
-/
namespace AddonLint.Rules

/-- Every built-in rule, in the order of the codes. -/
def builtin : List Rule :=
  [defaultChannel, labelFormat, operatorName, icon, testHarness, targetNamespace, indexImage,
    serviceVersion]

def builtin? (code : String) : Option Rule := builtin.find? fun rule => rule.code = code

def registry : Except ConfigError Registry :=
  match Registry.registerAll Dict.empty builtin with
  | (registry, none) => .ok registry
  | (_, some refusal) => .error refusal

end AddonLint.Rules
