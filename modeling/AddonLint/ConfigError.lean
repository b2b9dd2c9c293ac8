import AddonLint.Text.Quoted

/-!
# Configuration errors

Faults of the operator's input and of the rule table. All of them are found before anything is
read from the addon.
-/
namespace AddonLint

/-- The two lists of rule codes an operator may give. -/
inductive CodeList where
  | enabled
  | disabled
  deriving DecidableEq, Repr

def CodeList.flag : CodeList → String
  | .enabled => "enabled"
  | .disabled => "disabled"

/-- A fault of the configuration. -/
inductive ConfigError where
  | duplicateRuleCode (code : String)
  | invalidRuleCode (code : String)
  | invalidEnvironment (value : String)
  | invalidVersion (value : String)
  | conflictingFilters
  | unknownRuleCode (code : String) (list : CodeList)
  | notADirectory (path : String)
  | workingDirectory (path : String) (reason : String)
  deriving DecidableEq, Repr

def ConfigError.message : ConfigError → String
  | .duplicateRuleCode code => "rule code " ++ code ++ " is already registered"
  | .invalidRuleCode code =>
    "invalid rule code " ++ Text.quoted code ++ ": must be non-empty ASCII alphanumeric"
  | .invalidEnvironment value =>
    "'" ++ value ++
      "' is not a valid environment; must be one of 'integration', 'stage' or 'production'"
  | .invalidVersion value =>
    "'" ++ value ++
      "' is not a valid version; must be one of 'latest' or match 'MAJOR.MINOR.PATCH'"
  | .conflictingFilters => "--enabled and --disabled cannot be combined"
  | .unknownRuleCode code list =>
    "unknown rule code " ++ Text.quoted code ++ " in --" ++ list.flag ++ " list"
  | .notADirectory path => "'" ++ path ++ "' is not a directory"
  | .workingDirectory path reason =>
    "cannot resolve '" ++ path ++ "' against the current directory: " ++ reason

end AddonLint
