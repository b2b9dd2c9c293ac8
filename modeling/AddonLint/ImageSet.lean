import AddonLint.ImageSetName
import AddonLint.Schema.Json

/-!
# Image sets

One deployable version of an addon: its index image, the images of related operators and the
parameters, requirements and child operators that come with it.
-/
namespace AddonLint

/-- A parameter that an addon accepts when it is installed. -/
structure AddonParameter where
  id : String
  name : String
  description : String
  valueType : String
  validation : Option String
  required : Bool
  editable : Bool
  enabled : Bool
  defaultValue : Option String
  deriving DecidableEq, Repr, Inhabited

namespace AddonParameter

abbrev schema : Schema :=
  .record "struct AddOnParameter" false <|
    .cons "id" .required .string <|
    .cons "name" .defaulted .string <|
    .cons "description" .defaulted .string <|
    .cons "valueType" .defaulted .string <|
    .cons "validation" .defaulted (.nullable .string) <|
    .cons "required" .defaulted .flag <|
    .cons "editable" .defaulted .flag <|
    .cons "enabled" .defaulted .flag <|
    .cons "defaultValue" .defaulted (.nullable .string) .nil

def ofVals : schema.Val → AddonParameter
  | (id, name, description, valueType, validation, required, editable, enabled, defaultValue, ()) =>
    { id, name, description, valueType, validation, required, editable, enabled, defaultValue }

def toVals (p : AddonParameter) : schema.Val :=
  (p.id, p.name, p.description, p.valueType, p.validation, p.required, p.editable, p.enabled,
    p.defaultValue, ())

end AddonParameter

/-- A condition on the cluster for installing an addon. -/
structure AddonRequirement where
  id : String
  resource : String
  data : Dict Json
  enabled : Bool

namespace AddonRequirement

abbrev schema : Schema :=
  .record "struct AddOnRequirement" false <|
    .cons "id" .required .string <|
    .cons "resource" .required .string <|
    .cons "data" .defaulted (.dict .any) <|
    .cons "enabled" .defaulted .flag .nil

def ofVals : schema.Val → AddonRequirement
  | (id, resource, data, enabled, ()) => { id, resource, data, enabled }

def toVals (r : AddonRequirement) : schema.Val := (r.id, r.resource, r.data, r.enabled, ())

end AddonRequirement

/-- An operator whose life cycle belongs to the operator of the addon. -/
structure SubOperator where
  operatorName : String
  operatorNamespace : String
  enabled : Bool
  deriving DecidableEq, Repr, Inhabited

namespace SubOperator

abbrev schema : Schema :=
  .record "struct SubOperator" false <|
    .cons "operatorName" .required .string <|
    .cons "operatorNamespace" .required .string <|
    .cons "enabled" .defaulted .flag .nil

def ofVals : schema.Val → SubOperator
  | (operatorName, operatorNamespace, enabled, ()) => { operatorName, operatorNamespace, enabled }

def toVals (o : SubOperator) : schema.Val :=
  (o.operatorName, o.operatorNamespace, o.enabled, ())

end SubOperator

/-- One deployable version of an addon. -/
structure ImageSet where
  name : String
  indexImage : String
  relatedImages : List String
  parameters : Option (List AddonParameter)
  requirements : Option (List AddonRequirement)
  subOperators : Option (List SubOperator)

namespace ImageSet

abbrev schema : Schema :=
  .record "struct ImageSet" false <|
    .cons "name" .required .string <|
    .cons "indexImage" .required .string <|
    .cons "relatedImages" .defaulted (.list .string) <|
    .cons "addOnParameters" .optional (.nullable (.list AddonParameter.schema)) <|
    .cons "addOnRequirements" .optional (.nullable (.list AddonRequirement.schema)) <|
    .cons "subOperators" .optional (.nullable (.list SubOperator.schema)) .nil

def ofVals : schema.Val → ImageSet
  | (name, indexImage, relatedImages, parameters, requirements, subOperators, ()) =>
    { name, indexImage, relatedImages,
      parameters := parameters.map fun ps => ps.map AddonParameter.ofVals,
      requirements := requirements.map fun rs => rs.map AddonRequirement.ofVals,
      subOperators := subOperators.map fun os => os.map SubOperator.ofVals }

def toVals (s : ImageSet) : schema.Val :=
  (s.name, s.indexImage, s.relatedImages,
    s.parameters.map fun ps => ps.map AddonParameter.toVals,
    s.requirements.map fun rs => rs.map AddonRequirement.toVals,
    s.subOperators.map fun os => os.map SubOperator.toVals, ())

def ofJson (reading : Reading) (value : Json) : Except Fault ImageSet :=
  (schema.ofJson reading value).map ofVals

def toJson (s : ImageSet) : Json := schema.toJson s.toVals

/-- The version that the name encodes. -/
def version? (s : ImageSet) : Option SemVer := ImageSetName.version? s.name

end ImageSet

end AddonLint
