import AddonLint.Rule.Basic

/-!
# Rules on the names of the addon

The label is made from the identifier of the addon, and the bundles belong to its operator.
-/
namespace AddonLint.Rules

def expectedLabel (id : String) : String := "api.openshift.com/addon-" ++ id

def judgeLabel (addon : AddonMetadata) : Verdict :=
  .check (addon.label = expectedLabel addon.id)
    ("`label` " ++ Text.quoted addon.label ++ " does not match the expected " ++
      Text.quoted (expectedLabel addon.id) ++ " under the addon metadata of " ++ addon.id)

/-- The label has the form that is expected for the identifier. -/
def labelFormat : Rule where
  code := "AM0002"
  name := "label_format"
  description := "Ensure that `label` follows the format 'api.openshift.com/addon-<id>'"
  runner subject := .verdict (judgeLabel subject.addon)

/-- How a bundle of another operator is listed. -/
def describeStray (b : Bundle) : String := b.name ++ " (package " ++ Text.quoted b.package ++ ")"

def judgeOperatorName (subject : Subject) : Verdict :=
  let operator := subject.addon.operatorName
  let strays := subject.bundles.filter fun b => b.package ≠ operator
  if subject.bundles.isEmpty then
    .fail ("no bundle found for `operatorName` " ++ Text.quoted operator ++ " in " ++
      subject.artifact.indexImage)
  else
    .check strays.isEmpty
      ("bundles do not belong to `operatorName` " ++ Text.quoted operator ++ ": " ++
        String.intercalate ", " (strays.map describeStray))

/-- There are bundles, and all of them belong to the operator. -/
def operatorName : Rule where
  code := "AM0003"
  name := "operator_name"
  description := "Ensure that `operatorName` matches the package of every bundle in the index image"
  runner subject := .verdict (judgeOperatorName subject)

end AddonLint.Rules
