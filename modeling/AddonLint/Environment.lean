import AddonLint.ConfigError

/-!
# Environments

An addon is promoted from integration to stage to production.
-/
namespace AddonLint

/-- The environment an addon is validated for, in promotion order. -/
inductive Environment where
  | integration
  | stage
  | production
  deriving DecidableEq, Repr

namespace Environment

/-- Every environment in promotion order. -/
def all : List Environment := [.integration, .stage, .production]

def name : Environment → String
  | .integration => "integration"
  | .stage => "stage"
  | .production => "production"

def rank : Environment → Nat
  | .integration => 0
  | .stage => 1
  | .production => 2

instance : Inhabited Environment := ⟨.stage⟩

instance : LT Environment := ⟨fun a b => a.rank < b.rank⟩

instance (a b : Environment) : Decidable (a < b) := inferInstanceAs (Decidable (a.rank < b.rank))

def ofName? (s : String) : Option Environment := all.find? fun e => e.name = s

def parse (s : String) : Except ConfigError Environment :=
  match ofName? s with
  | some e => .ok e
  | none => .error (.invalidEnvironment s)

end Environment

end AddonLint
