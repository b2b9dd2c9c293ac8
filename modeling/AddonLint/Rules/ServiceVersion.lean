import AddonLint.Rule.Basic

/-!
# The rule on service versions

Every bundle ships exactly one ClusterServiceVersion, and its `spec.version` is a semantic version.
One whose `spec` is no mapping cannot be judged at all.
-/
namespace AddonLint.Rules

/-- What kind of value stands where a mapping is expected. -/
def kindOf : Json → String
  | .null => "null"
  | .bool _ => "boolean"
  | .int _ => "number"
  | .float _ => "number"
  | .str _ => "string"
  | .arr _ => "sequence"
  | .obj _ => "mapping"

/-- What is wrong with the version in a `spec`. -/
def versionProblem? (bundle : String) (spec : List (String × Json)) : Option String :=
  match spec.lookup "version" with
  | some (.str raw) =>
    match SemVer.parse raw with
    | .ok _ => none
    | .error _ =>
      some ("`spec.version` " ++ Text.quoted raw ++ " of bundle " ++ bundle ++
        " is not a semantic version")
  | some _ => some ("`spec.version` of bundle " ++ bundle ++ " is not a string")
  | none => some ("`spec.version` missing in bundle " ++ bundle)

def serviceVersionProblem? (bundle : String) (manifest : Json) :
    Except RuleError (Option String) :=
  match manifest.field? "spec" with
  | none | some .null =>
    .ok (some ("ClusterServiceVersion of bundle " ++ bundle ++ " has no `spec`"))
  | some (.obj spec) => .ok (versionProblem? bundle spec)
  | some other =>
    .error (.malformedInput ("`spec` of the ClusterServiceVersion in bundle " ++ bundle ++
      " is a " ++ kindOf other ++ ", not a mapping"))

def bundleProblem? (b : Bundle) : Except RuleError (Option String) :=
  match b.serviceVersion? with
  | some manifest => serviceVersionProblem? b.name manifest
  | none =>
    .ok (some ("bundle " ++ b.name ++ " carries " ++ toString b.serviceVersions.length ++
      " ClusterServiceVersions, expected exactly one"))

/-- What is wrong with the bundles, in their order. -/
def bundleProblems : List Bundle → Except RuleError (List String)
  | [] => .ok []
  | b :: rest => do
    let problem ← bundleProblem? b
    let problems ← bundleProblems rest
    return problem.toList ++ problems

/-- How the check of the bundles ends. -/
def judgeServiceVersions (bundles : List Bundle) : RunnerEnd :=
  match bundleProblems bundles with
  | .ok problems => .verdict (.check problems.isEmpty (String.intercalate "; " problems))
  | .error e => .error e

/-- Every bundle carries exactly one ClusterServiceVersion with a semantic version. -/
def serviceVersion : Rule where
  code := "AM0008"
  name := "csv_version"
  description :=
    "Ensure that every bundle carries exactly one ClusterServiceVersion with a semantic " ++
      "`spec.version`"
  runner subject := judgeServiceVersions subject.bundles

end AddonLint.Rules
