import SwanModel.Property.Equation

/-! # Properties of diagrams and scope sections -/

namespace SwanModel

open Property

def DiagramForm.properties : DiagramForm → Properties
  | .object => [("locals", part 1), ("luid", part 0)]
  | .diagram => [("objects", part 0)]
  | .expression => [("expr", part 0), ("locals", part 2), ("luid", part 1)]
  | .definition => [("lhs", part 0), ("locals", part 2), ("luid", part 1)]
  | .block => [("instance", part 0), ("instance_name", part 1), ("locals", part 3), ("luid", part 2)]
  | .connection =>
    [("adaptation", part 1), ("is_connected", given 0),
      ("is_valid", flag fun ps => !(partAt ps 0).isAbsent || (partAt ps 1).isAbsent), ("port", part 0)]
  | .wire =>
    [("has_target", hasMembers 1), ("locals", part 3), ("luid", part 2), ("source", part 0),
      ("targets", part 1)]
  | .group => [("locals", part 2), ("luid", part 1), ("operation", part 0)]
  | .sectionObject => [("locals", part 2), ("luid", part 1), ("section", part 0)]

def DiagramForm.isProtected : DiagramForm → List Term → Bool
  | .definition, parts => (partAt parts 0).isText
  | .block, parts => (partAt parts 0).isVerbatim
  | _, _ => false

def SectionForm.properties : SectionForm → Properties
  | .bare => []
  | .scope => [("sections", part 0)]
  | .equations => [("equations", part 0)]
  | .variables => [("var_decls", part 0)]
  | .emission => [("condition", part 1), ("flows", part 0)]
  | .emissions => [("emissions", part 0)]
  | .property => [("expr", part 1), ("identifier", part 0)]
  | .assumptions => [("hypotheses", part 0)]
  | .guarantees => [("guarantees", part 0)]
  | .verbatim => [("data", part 0), ("markup", constant (.text Name.defaultMarkup))]

def SectionForm.isProtected : SectionForm → Bool
  | .verbatim => true
  | _ => false

end SwanModel
