import AddonLint.Rule.Basic

/-!
# Rules on chosen names

The default channel has to be one of the channels, and the target namespace one of the namespaces,
that the metadata declare.
-/
namespace AddonLint.Rules

/-- The failure of a rule that asks for a field of the metadata which is empty. -/
def notFound (field : String) (addon : AddonMetadata) : Verdict :=
  .fail ("`" ++ field ++ "` not found under the addon metadata of " ++ addon.id)

def judgeDefaultChannel (addon : AddonMetadata) : Verdict :=
  if addon.defaultChannel = "" then notFound "defaultChannel" addon
  else
    .check (addon.channels.any fun c => c.name = addon.defaultChannel)
      ("`defaultChannel` " ++ Text.quoted addon.defaultChannel ++
        " is not one of the channels listed under the addon metadata of " ++ addon.id)

/-- The default channel is a declared channel. -/
def defaultChannel : Rule where
  code := "AM0001"
  name := "default_channel"
  description :=
    "Ensure that `defaultChannel` is one of the channels listed in the addon metadata"
  runner subject := .verdict (judgeDefaultChannel subject.addon)

def judgeTargetNamespace (addon : AddonMetadata) : Verdict :=
  if addon.targetNamespace = "" then notFound "targetNamespace" addon
  else
    .check (addon.namespaces.contains addon.targetNamespace)
      ("`targetNamespace` " ++ Text.quoted addon.targetNamespace ++
        " is not listed in `namespaces` [" ++ String.intercalate ", " addon.namespaces ++
        "] under the addon metadata of " ++ addon.id)

/-- The target namespace is a declared namespace. -/
def targetNamespace : Rule where
  code := "AM0006"
  name := "target_namespace"
  description := "Ensure that `targetNamespace` is listed in `namespaces`"
  runner subject := .verdict (judgeTargetNamespace subject.addon)

end AddonLint.Rules
