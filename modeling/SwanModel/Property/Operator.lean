import SwanModel.Property.Basic

/-! # Properties of operators and forward loops -/

namespace SwanModel

open Property

def OperatorForm.properties : OperatorForm → Properties
  | .bare => [("sizes", part 0)]
  | .bareExpression => []
  | .path => [("path_id", part 0), ("pragmas", part 2), ("sizes", part 1)]
  | .primitive => [("kind", part 0), ("sizes", part 1)]
  | .transpose =>
    [("kind", constant (.constant (.primitive .transpose))), ("params", part 0), ("sizes", part 1)]
  | .expression => [("operator_expression", part 0), ("sizes", part 1)]
  | .iterator => [("kind", part 0), ("operator", part 1)]
  | .activateClock => [("clock", part 1), ("operator", part 0)]
  | .activateEvery =>
    [("condition", part 1), ("expr", part 3), ("is_last", part 2), ("operator", part 0)]
  | .restart => [("condition", part 1), ("operator", part 0)]
  | .optionalItem => [("is_underscore", flag fun ps => (partAt ps 0).isAbsent), ("item", part 0)]
  | .partialApplication => [("operator", part 0), ("partial_group", part 1)]
  | .nary => [("operator", part 0)]
  | .lambda => [("expr", part 3), ("is_node", part 0), ("params", part 1), ("sections", part 2)]
  | .lambdaScope =>
    [("data_def", part 3), ("inputs", part 1), ("is_node", part 0), ("outputs", part 2)]
  | .verbatim => [("data", part 0), ("markup", part 1)]

def OperatorForm.isProtected : OperatorForm → Bool
  | .verbatim => true
  | _ => false

namespace Dimension

def isVerbatim (parts : List Term) : Bool := !(partAt parts 3).isAbsent

/-- A dimension that is no text has an identifier, no elements at all, or at least one. -/
def isValid (parts : List Term) : Except Error Term :=
  if isVerbatim parts then .ok (.truth false)
  else if (partAt parts 1).isTruthy || (partAt parts 2).isAbsent then .ok (.truth true)
  else do return .truth (0 < (← (partAt parts 2).length))

end Dimension

/-- A part, or the part that stands in for it. -/
def partOr (i other : Nat) : Property := fun parts =>
  .ok (.stored [if (partAt parts i).isTruthy then i else other])

def ForwardForm.properties : ForwardForm → Properties
  | .left => [("is_id", flag fun ps => (partAt ps 0).isIdentifier), ("lhs", part 0)]
  | .element => [("expr", part 1), ("lhs", part 0)]
  | .dimension =>
    [("dim_id", part 1), ("elems", part 2), ("expr", part 0), ("is_valid", value Dimension.isValid),
      ("value", part 3)]
  | .lastDefault => [("default", partOr 1 2), ("is_shared", given 2), ("last", partOr 0 2)]
  | .itemClause => [("id", part 0), ("last_default", part 1)]
  | .arrayClause => [("return_clause", part 0)]
  | .returnBare => []
  | .returnItem => [("item_clause", part 0)]
  | .returnArray => [("array_clause", part 0), ("return_id", constant .anyIdentifier)]
  | .returnVerbatim => [("data", part 0), ("markup", constant (.text Name.defaultMarkup))]
  | .body => [("body", part 0), ("unless_expr", part 1), ("until_expr", part 2)]

def ForwardForm.isProtected : ForwardForm → List Term → Bool
  | .dimension, parts => Dimension.isVerbatim parts
  | .returnVerbatim, _ => true
  | _, _ => false

end SwanModel
