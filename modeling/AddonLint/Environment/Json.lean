import AddonLint.Environment
import AddonLint.Schema.Choice

/-!
# Environments in JSON values

An environment is written as its name.
-/
namespace AddonLint.Environment

def ofJson (value : Json) : Except Fault Environment :=
  value.choice (all.map name) ofName?

def toJson (e : Environment) : Json := .str e.name

end AddonLint.Environment
