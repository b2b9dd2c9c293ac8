import AddonLint.Schema.Json

/-!
# Addon metadata

What an addon declares for one environment: its identity, the channels and namespaces it uses, its
icon and test harness, and which image set it deploys by default. Keys that are not modelled are
kept with their values.
-/
namespace AddonLint

/-- A channel that the addon subscribes to. -/
structure Channel where
  name : String
  currentCSV : String
  deriving DecidableEq, Repr, Inhabited

namespace Channel

/-- The shape of a channel. -/
abbrev schema : Schema :=
  .record "struct Channel" false <|
    .cons "name" .required .string <|
    .cons "currentCSV" .defaulted .string .nil

def ofVals (v : schema.Val) : Channel := ⟨v.1, v.2.1⟩

def toVals (c : Channel) : schema.Val := (c.name, c.currentCSV, ())

end Channel

/-- The declared metadata of an addon. -/
structure AddonMetadata where
  id : String
  name : String
  description : String
  operatorName : String
  label : String
  icon : String
  defaultChannel : String
  channels : List Channel
  targetNamespace : String
  namespaces : List String
  testHarness : String
  installMode : String
  indexImage : Option String
  addonImageSetVersion : Option String
  extra : Dict Json

namespace AddonMetadata

/-- The modelled fields. -/
abbrev fields : FieldList :=
  .cons "id" .required .string <|
  .cons "name" .defaulted .string <|
  .cons "description" .defaulted .string <|
  .cons "operatorName" .required .string <|
  .cons "label" .defaulted .string <|
  .cons "icon" .defaulted .string <|
  .cons "defaultChannel" .defaulted .string <|
  .cons "channels" .defaulted (.list Channel.schema) <|
  .cons "targetNamespace" .defaulted .string <|
  .cons "namespaces" .defaulted (.list .string) <|
  .cons "testHarness" .defaulted .string <|
  .cons "installMode" .defaulted .string <|
  .cons "indexImage" .optional (.nullable .string) <|
  .cons "addonImageSetVersion" .optional (.nullable .string) .nil

/-- The shape of the metadata; unmodelled keys stay. -/
abbrev schema : Schema := .openRecord "struct AddonMetadata" fields

def ofVals : schema.Val → AddonMetadata
  | ((id, name, description, operatorName, label, icon, defaultChannel, channels, targetNamespace,
      namespaces, testHarness, installMode, indexImage, addonImageSetVersion, ()), extra) =>
    { id, name, description, operatorName, label, icon, defaultChannel,
      channels := channels.map Channel.ofVals, targetNamespace, namespaces, testHarness,
      installMode, indexImage, addonImageSetVersion, extra }

def toVals (m : AddonMetadata) : schema.Val :=
  ((m.id, m.name, m.description, m.operatorName, m.label, m.icon, m.defaultChannel,
    m.channels.map Channel.toVals, m.targetNamespace, m.namespaces, m.testHarness, m.installMode,
    m.indexImage, m.addonImageSetVersion, ()), m.extra)

/-- Metadata with nothing but its two required fields. -/
def ofNames (id operatorName : String) : AddonMetadata :=
  { id, operatorName, name := "", description := "", label := "", icon := "", defaultChannel := "",
    channels := [], targetNamespace := "", namespaces := [], testHarness := "", installMode := "",
    indexImage := none, addonImageSetVersion := none, extra := Dict.empty }

def ofJson (value : Json) : Except Fault AddonMetadata :=
  (schema.ofJson .direct value).map ofVals

def toJson (m : AddonMetadata) : Json := schema.toJson m.toVals

end AddonMetadata

end AddonLint
