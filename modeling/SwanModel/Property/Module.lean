import SwanModel.Property.Basic

/-!
# Properties of declarations and modules

An operator whose body is still to be computed has a body.
-/

namespace SwanModel

open Property

/-- The markup of variables that could not be read. -/
def flowMarkup : String := "var"

namespace Operator

/-- The position of the body among the parts of an operator. -/
def bodyIndex : Nat := 4

/-- The position of the mark for operators written as text. -/
def textIndex : Nat := 9

def equationForms : List Form :=
  [.bare, .expression, .byCase, .machine, .activateIf, .activateWhen].map .equation

def body (parts : List Term) : Except Error Term :=
  match partAt parts bodyIndex with
  | .pending k => .error (.pending k)
  | body => .ok body

/-- Whether the body of an operator is an equation. -/
def hasEquationBody (parts : List Term) : Except Error Term := do
  let body ← body parts
  return .truth (equationForms.any body.is)

end Operator

def DeclForm.properties : DeclForm → Properties
  | .constant => [("identifier", part 0), ("type", part 1), ("value", part 2)]
  | .sensor => [("identifier", part 0), ("type", part 1)]
  | .group => [("identifier", part 0), ("type", part 1)]
  | .type => [("definition", part 1), ("identifier", part 0)]
  | .flow => []
  | .flowDecl =>
    [("default", part 5), ("identifier", part 0), ("is_clock", part 1), ("is_probe", part 2),
      ("last", part 6), ("type", part 3), ("when", part 4)]
  | .flowVerbatim => [("data", part 0), ("markup", Property.constant (.text flowMarkup))]
  | .typeConstraint => [("kind", part 1), ("type_vars", part 0)]
  | .signature =>
    [("constraints", copy 5), ("identifier", part 0), ("inputs", copy 2), ("is_node", part 1),
      ("outputs", copy 3), ("pragmas", copy 7), ("sizes", copy 4), ("specialization", part 6)]
  | .operator =>
    [("body", part Operator.bodyIndex), ("constraints", copy 6), ("has_body", given Operator.bodyIndex),
      ("identifier", part 0), ("inputs", copy 2),
      ("is_equation_body", value Operator.hasEquationBody), ("is_node", part 1),
      ("is_text", part Operator.textIndex), ("outputs", copy 3), ("pragmas", copy 8),
      ("sizes", copy 5), ("specialization", part 7)]

def DeclForm.isProtected : DeclForm → List Term → Bool
  | .flowVerbatim, _ => true
  | .typeConstraint, parts => (partAt parts 0).isText
  | _, _ => false

def hasMarkup (markup : String) : Property := flag fun parts =>
  match partAt parts 0 with
  | .text s => s == markup
  | _ => false

def moduleProperties : Properties :=
  [("declaration_list", part 2), ("declarations", stream 2), ("name", part 0),
    ("use_directive_list", part 1), ("use_directives", stream 1)]

def ModuleForm.properties : ModuleForm → Properties
  | .global => []
  | .types => [("types", part 0)]
  | .constants => [("constants", part 0)]
  | .sensors => [("sensors", part 0)]
  | .groups => [("groups", part 0)]
  | .use => [("alias", part 1), ("path", part 0)]
  | .verbatim =>
    [("data", part 1), ("is_const", hasMarkup "const"), ("is_group", hasMarkup "group"),
      ("is_sensor", hasMarkup "sensor"), ("is_type", hasMarkup "type"),
      ("is_user_operator", hasMarkup "syntax_text"), ("markup", part 0)]
  | .bare | .body | .interface => moduleProperties

def ModuleForm.isProtected : ModuleForm → Bool
  | .verbatim => true
  | _ => false

end SwanModel
