import SwanModel.Layout.Basic

/-! # Layout of operators and forward loops -/

namespace SwanModel

def sizesLayout (front : String) (sizes : Printed) : Except Error String :=
  if sizes.isTruthy then do return front ++ " <<" ++ (← sizes.join ", ") ++ ">>" else .ok front

def transposeLayout (params : Printed) : Except Error String := do
  let indices ←
    if params.term.isText then verbatimLayout Name.defaultMarkup params else params.join ", "
  return if indices.isEmpty then "transpose" else "transpose \x7b" ++ indices ++ "\x7d"

def iteratorWord : Term → String
  | .constant (.iteratorKind kind) => kind.text
  | _ => noneText

def nodeWord (isNode : Printed) : String := if isNode.isTruthy then "node" else "function"

def OperatorForm.layout : OperatorForm → Layout
  | .path, [id, sizes, _] => do sizesLayout (← id.text) sizes
  | .primitive, [kind, sizes] => do sizesLayout (← loweredName kind.term) sizes
  | .transpose, [params, sizes] => do sizesLayout (← transposeLayout params) sizes
  | .expression, [op, sizes] => do sizesLayout ("(" ++ (← op.text) ++ ")") sizes
  | .iterator, [kind, op] => do return iteratorWord kind.term ++ " " ++ (← op.text)
  | .activateClock, [op, clock] => do return "activate " ++ (← op.text) ++ " every " ++ (← clock.text)
  | .activateEvery, [op, condition, isLast, expr] => do
    return "activate " ++ (← op.text) ++ " every " ++ (← condition.text)
      ++ (if isLast.isTruthy then " last " else " default ") ++ (← expr.text)
  | .restart, [op, condition] => do return "restart " ++ (← op.text) ++ " every " ++ (← condition.text)
  | .optionalItem, [item] => if item.isAbsent then .ok "_" else item.text
  | .partialApplication, [op, items] => do
    let group ← items.join ", "
    return (← op.text) ++ " \\ " ++ group
  | .nary, [op] =>
    match op.term with
    | .constant (.naryOp op) => .ok op.text
    | _ => .error .wrongKind
  | .lambda, [isNode, params, sections, expr] => do
    let paramsText ← params.join ", "
    let sectionsText ← sections.join " "
    let gap := if sectionsText.isEmpty then "" else " "
    return nodeWord isNode ++ " " ++ paramsText ++ gap ++ sectionsText ++ " => " ++ (← expr.text)
  | .lambdaScope, [isNode, inputs, outputs, body] => do
    return nodeWord isNode ++ " (" ++ (← inputs.join "; ") ++ ") returns (" ++ (← outputs.join "; ")
      ++ ") " ++ (← body.text)
  | .verbatim, [data, markup] => markedLayout data markup
  | _, _ => .error .missingMember

/-- The markup of dimensions that could not be read. -/
def dimensionMarkup : String := "dim"

def dimensionLayout (expr id elems text : Printed) : Except Error String :=
  if text.isAbsent then do
    let size ← expr.text
    let opening := if id.isTruthy || elems.isTruthy then " with" else ""
    let idText ← id.whenTrue " <<" ">>"
    let elemsText ← if elems.isTruthy then (" " ++ ·) <$> elems.join " " else .ok ""
    return "<<" ++ size ++ ">>" ++ opening ++ idText ++ elemsText
  else
    verbatimLayout dimensionMarkup text

def lastDefaultLayout (last fallback shared : Printed) : Except Error String :=
  if shared.isTruthy then shared.whenTrue "last = default = " ""
  else do
    let lastText ← last.whenTrue "last = " ""
    let fallbackText ← fallback.whenTrue "default = " ""
    let gap := if last.isTruthy && fallback.isTruthy then " " else ""
    return lastText ++ gap ++ fallbackText

def ForwardForm.layout : ForwardForm → Layout
  | .left, [lhs] => if lhs.term.isIdentifier then lhs.text else do return "[" ++ (← lhs.text) ++ "]"
  | .element, [lhs, expr] => do return (← lhs.text) ++ " = " ++ (← expr.text) ++ ";"
  | .dimension, [expr, id, elems, text] => dimensionLayout expr id elems text
  | .lastDefault, [last, fallback, shared] => lastDefaultLayout last fallback shared
  | .itemClause, [id, values] => do return (← id.text) ++ (← values.whenTrue ": " "")
  | .arrayClause, [clause] => do return "[" ++ (← clause.text) ++ "]"
  | .returnItem, [clause] => clause.text
  | .returnArray, [clause, id] => do return (← id.text) ++ " = " ++ (← clause.text)
  | .returnVerbatim, [data] => verbatimLayout Name.defaultMarkup data
  | .body, [sections, unlessExpr, untilExpr] => do
    let front ← unlessExpr.whenTrue "unless " "\n"
    let back ← untilExpr.whenTrue "\nuntil " ""
    return front ++ (← sections.join "\n") ++ back
  | _, _ => .error .missingMember

end SwanModel
