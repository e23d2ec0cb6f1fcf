import SwanModel.Property.Basic

/-! # Properties of expressions and patterns -/

namespace SwanModel

open Property

namespace Literal

def isKind (kind : LiteralKind) : List Term → Bool := fun parts =>
  match partAt parts 1 with
  | .constant (.literalKind k) => k == kind
  | _ => false

def isTrue (parts : List Term) : Bool :=
  isKind .bool parts &&
    match partAt parts 0 with
    | .text s => s == "true"
    | _ => false

/-- Whether a numeric literal passes a test of its text. -/
def numeric (test : String → Except Error Bool) (parts : List Term) : Except Error Term :=
  if isKind .numeric parts then
    match partAt parts 0 with
    | .text s => (test s).map .truth
    | _ => .error .wrongKind
  else
    .ok (.truth false)

end Literal

namespace Pattern

/-- The number that an integer pattern stands for. -/
def number (parts : List Term) : Except Error Term :=
  match partAt parts 0 with
  | .text s => do
    match ← Numeral.Integer.read s (partAt parts 1).isTruthy with
    | some literal => return .number literal.value
    | none => .error .missingMember
  | _ => .error .wrongKind

end Pattern

namespace Renaming

/-- Where a construct that has an identifier keeps it among its parts. -/
def idIndex : Term → Except Error Nat
  | .node (.expr .path) _ | .node (.part .clock) _ | .node (.forward .itemClause) _ => .ok 0
  | .node (.equation .identification) _ => .ok 1
  | .node (.equation .transitionDecl) _ => .ok 3
  | _ => .error .missingMember

/-- A shortcut has to keep the identifier. -/
def isValid : Property := fun parts =>
  if (partAt parts 1).isTruthy && (partAt parts 2).isTruthy then do
    let source ← idIndex (partAt parts 0)
    let renamed ← idIndex (partAt parts 1)
    return .same [0, source] [1, renamed]
  else
    .ok (.made (.truth true))

end Renaming

def PatternForm.properties : PatternForm → Properties
  | .bare | .underscore | .otherwise => []
  | .path => [("path_id", part 0)]
  | .variant =>
    [("captured", part 1),
      ("empty_capture", flag fun ps => !((partAt ps 2).isTruthy || !(partAt ps 1).isAbsent)),
      ("has_capture", given 1), ("has_underscore", part 2), ("path_id", part 0)]
  | .char => [("value", part 0)]
  | .int => [("as_int", value Pattern.number), ("is_minus", part 1), ("value", part 0)]
  | .bool => [("is_true", part 0)]
  | .verbatim => [("data", part 0), ("markup", constant (.text Name.defaultMarkup))]

/-- The luid of a port, which is the port of the construct itself if none is given. -/
def portLuid : Property := fun parts =>
  if (partAt parts 0).isAbsent then .ok (.made (.text "self")) else .ok (.stored [0])

def ExprForm.properties : ExprForm → Properties
  | .bare => []
  | .path => [("id", part 0)]
  | .last => [("identifier", part 0)]
  | .literal =>
    [("is_bool", flag (Literal.isKind .bool)), ("is_char", flag (Literal.isKind .char)),
      ("is_float", value (Literal.numeric Numeral.Real.isReal)),
      ("is_integer", value (Literal.numeric Numeral.Integer.isInteger)),
      ("is_numeric", flag (Literal.isKind .numeric)), ("is_true", flag Literal.isTrue),
      ("value", part 0)]
  | .port => [("is_self", flag fun ps => (partAt ps 0).isAbsent), ("luid", portLuid)]
  | .unary => [("expr", part 1), ("operator", part 0)]
  | .binary => [("left", part 1), ("operator", part 0), ("right", part 2)]
  | .whenClock => [("clock", part 1), ("expr", part 0)]
  | .whenMatch => [("expr", part 0), ("when", part 1)]
  | .conversion => [("expr", part 0), ("type", part 1)]
  | .group => [("group", part 0)]
  | .adapted => [("adaptation", part 1), ("expr", part 0)]
  | .arrayProjection => [("expr", part 0), ("index", part 1)]
  | .structProjection => [("expr", part 0), ("label", part 1)]
  | .makeGroup => [("expr", part 1), ("group", part 0)]
  | .slice => [("end", part 2), ("expr", part 0), ("start", part 1)]
  | .dynamicProjection => [("default", part 2), ("expr", part 0), ("indices", part 1)]
  | .makeArray => [("expr", part 0), ("size", part 1)]
  | .arrayOfGroup => [("group", part 0)]
  | .makeStruct => [("group", part 0), ("type", part 1)]
  | .variant => [("group", part 1), ("tag", part 0)]
  | .makeCopy => [("expr", part 0), ("modifiers", part 1)]
  | .conditional => [("condition", part 0), ("else_expr", part 2), ("then_expr", part 1)]
  | .caseOf => [("branches", part 1), ("expr", part 0)]
  | .window => [("init", part 2), ("params", part 1), ("size", part 0)]
  | .merge => [("params", part 0)]
  | .verbatim => [("data", part 0), ("markup", constant (.text Name.defaultMarkup))]
  | .forward =>
    [("body", part 2), ("dimensions", part 1), ("luid", part 4), ("returns", part 3),
      ("state", part 0)]
  | .operation => [("luid", part 2), ("operator", part 0), ("params", part 1)]

def PartForm.properties : PartForm → Properties
  | .clock => [("id", part 0), ("is_not", part 1), ("pattern", part 2)]
  | .groupItem => [("expr", part 0), ("has_label", given 1), ("label", part 1)]
  | .group => [("items", part 0)]
  | .groupRenaming =>
    [("is_by_name", flag fun ps => (partAt ps 0).isIdentifier), ("is_shortcut", part 2),
      ("is_valid", Renaming.isValid), ("renaming", part 1), ("source", part 0)]
  | .adaptation => [("renamings", part 0)]
  | .labelOrIndex =>
    [("index", part 0), ("is_label", flag fun ps => (partAt ps 0).isIdentifier)]
  | .modifier => [("expr", part 1), ("modifier", part 0)]
  | .caseBranch => [("expr", part 1), ("pattern", part 0)]

def PatternForm.isProtected : PatternForm → Bool
  | .verbatim => true
  | _ => false

def ExprForm.isProtected : ExprForm → Bool
  | .verbatim => true
  | _ => false

def PartForm.isProtected : PartForm → List Term → Bool
  | .modifier, parts => (partAt parts 0).isText
  | _, _ => false

end SwanModel
