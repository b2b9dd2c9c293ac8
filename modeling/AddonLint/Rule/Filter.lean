import AddonLint.Rule.Registry
import AddonLint.Text.Fields

/-!
# Filters

A filter selects the rules of a run: those on a list, those not on a list, or all. Every listed
code must be registered, so that a misspelt one is noticed.
-/
namespace AddonLint

/-- A selection of rules. At most one of the lists has members. -/
structure Filter where
  enabled : TextSet
  disabled : TextSet
  deriving DecidableEq

namespace Filter

def all : Filter := ⟨Dict.empty, Dict.empty⟩

/-- The codes of a comma-separated list. -/
def codes (raw : String) : TextSet := TextSet.ofList (Text.fields raw)

/-- The least code of a list that is not registered. -/
def unknownCode? (registry : Registry) (codes : TextSet) : Option String :=
  codes.toList.find? fun code => !registry.contains code

/-- The filter of two comma-separated lists. -/
def parse (disabled enabled : String) (registry : Registry) : Except ConfigError Filter :=
  let disabled := codes disabled
  let enabled := codes enabled
  if disabled ≠ Dict.empty ∧ enabled ≠ Dict.empty then .error .conflictingFilters
  else
    match unknownCode? registry disabled, unknownCode? registry enabled with
    | some code, _ => .error (.unknownRuleCode code .disabled)
    | none, some code => .error (.unknownRuleCode code .enabled)
    | none, none => .ok ⟨enabled, disabled⟩

def includes (filter : Filter) (code : String) : Bool :=
  if filter.enabled ≠ Dict.empty then filter.enabled.contains code
  else if filter.disabled ≠ Dict.empty then !filter.disabled.contains code
  else true

/-- The rules of a registry that the filter selects, in the order of their codes. -/
def select (filter : Filter) (registry : Registry) : List Rule :=
  registry.rules.filter fun rule => filter.includes rule.code

end Filter

end AddonLint
