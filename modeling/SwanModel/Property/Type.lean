import SwanModel.Property.Basic

/-! # Properties of types -/

namespace SwanModel

open Property

def TypeForm.properties : TypeForm → Properties
  | .bare | .definition | .groupBare => []
  | .typeVariable => [("name", part 0)]
  | .predefined => [("predefined", part 0)]
  | .sized => [("is_signed", part 1), ("size", part 0)]
  | .named => [("alias", part 0)]
  | .field => [("field", part 0), ("type", part 1)]
  | .struct => [("fields", part 0)]
  | .array => [("size", part 1), ("type", part 0)]
  | .verbatim => [("data", part 0), ("markup", constant (.text Name.defaultMarkup))]
  | .exprDefinition => [("type", part 0)]
  | .enumeration => [("tags", part 0)]
  | .variantCase => [("tag", part 0), ("type", part 1)]
  | .variants => [("tags", part 0)]
  | .groupType => [("type", part 0)]
  | .groupNamed => [("label", part 0), ("type", part 1)]
  | .groupList => [("named", stream 1), ("positional", stream 0)]

def TypeForm.isProtected : TypeForm → Bool
  | .verbatim => true
  | _ => false

end SwanModel
