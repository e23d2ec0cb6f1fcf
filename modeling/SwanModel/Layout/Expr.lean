import SwanModel.Layout.Basic

/-! # Layout of patterns and expressions -/

namespace SwanModel

def PatternForm.layout : PatternForm → Layout
  | .path, [id] => id.text
  | .variant, [id, captured, hides] => do
    let tag ← id.text
    if hides.isTruthy then return tag ++ " _"
    else if captured.isAbsent then return tag ++ " \x7b \x7d"
    else return tag ++ " \x7b " ++ (← captured.text) ++ " \x7d"
  | .char, [value] => value.exactText
  | .int, [value, minus] =>
    if minus.isTruthy then do return "-" ++ (← value.text) else value.exactText
  | .bool, [value] => .ok (if value.isTruthy then "true" else "false")
  | .underscore, [] => .ok "_"
  | .otherwise, [] => .ok "default"
  | .verbatim, [data] => verbatimLayout Name.defaultMarkup data
  | _, _ => .error .missingMember

def unarySign : Term → String
  | .constant (.unaryOp op) => op.text
  | _ => noneText

def binarySign : Term → String
  | .constant (.binaryOp op) => op.text
  | _ => noneText

def mergeLayout (params : Printed) : Except Error String :=
  if params.isTruthy then do
    let texts ← params.texts
    return "merge " ++ " ".intercalate (texts.map fun p => "(" ++ p ++ ")")
  else
    .ok (Name.enclose Name.defaultMarkup "merge")

/-- A forward loop; the state of one that keeps or restarts it cannot be written. -/
def forwardLayout (state dimensions body returns luid : Printed) : Except Error String := do
  let luidText ← luid.whenTrue " " ""
  match state.term with
  | .constant (.forwardState .nothing) => pure ()
  | _ => throw .missingMember
  let dims ← dimensions.join "\n"
  let bodyText ← body.text
  let group ← returns.join ", "
  return "forward" ++ luidText ++ "\n" ++ dims ++ "\n" ++ bodyText ++ "\nreturns (" ++ group ++ ")"

def operationLayout (operator params luid : Printed) : Except Error String := do
  let op ← operator.text
  let luidText ← luid.whenTrue " " ""
  return op ++ luidText ++ " (" ++ (← params.text) ++ ")"

def ExprForm.layout : ExprForm → Layout
  | .path, [id] => id.text
  | .last, [id] => do return "last " ++ (← id.text)
  | .literal, [value, _] => value.text
  | .port, [luid] => if luid.isAbsent then .ok "self" else luid.text
  | .unary, [op, expr] => do return unarySign op.term ++ " " ++ (← expr.text)
  | .binary, [op, left, right] => do
    return (← left.text) ++ " " ++ binarySign op.term ++ " " ++ (← right.text)
  | .whenClock, [expr, clock] => do return (← expr.text) ++ " when " ++ (← clock.text)
  | .whenMatch, [expr, pattern] => do return (← expr.text) ++ " when match " ++ (← pattern.text)
  | .conversion, [expr, type] => do return "(" ++ (← expr.text) ++ " :> " ++ (← type.text) ++ ")"
  | .group, [items] => do return "(" ++ (← items.text) ++ ")"
  | .adapted, [expr, adaptation] => do return (← expr.text) ++ " " ++ (← adaptation.text)
  | .arrayProjection, [expr, index] => do return (← expr.text) ++ (← index.text)
  | .structProjection, [expr, label] => do return (← expr.text) ++ (← label.text)
  | .makeGroup, [type, expr] => do return (← type.text) ++ " group (" ++ (← expr.text) ++ ")"
  | .slice, [expr, start, stop] => do
    return (← expr.text) ++ "[" ++ (← start.text) ++ " .. " ++ (← stop.text) ++ "]"
  | .dynamicProjection, [expr, indices, fallback] => do
    let projections ← indices.join ""
    return "(" ++ (← expr.text) ++ " . " ++ projections ++ " default " ++ (← fallback.text) ++ ")"
  | .makeArray, [expr, size] => do return (← expr.text) ++ "^" ++ (← size.text)
  | .arrayOfGroup, [items] => do return "[" ++ (← items.text) ++ "]"
  | .makeStruct, [items, type] => do
    let typeText ← type.whenTrue " : " ""
    return "\x7b" ++ (← items.text) ++ "\x7d" ++ typeText
  | .variant, [tag, items] => do return (← tag.text) ++ " \x7b" ++ (← items.text) ++ "\x7d"
  | .makeCopy, [expr, modifiers] => do
    let changes ← modifiers.join "; "
    return "(" ++ (← expr.text) ++ " with " ++ changes ++ ")"
  | .conditional, [condition, yes, no] => do
    return "if " ++ (← condition.text) ++ " then " ++ (← yes.text) ++ " else " ++ (← no.text)
  | .caseOf, [expr, branches] => do
    let branchTexts ← branches.join " "
    return "(case " ++ (← expr.text) ++ " of " ++ branchTexts ++ ")"
  | .window, [size, params, start] => do
    return "window <<" ++ (← size.text) ++ ">> (" ++ (← params.text) ++ ") ("
      ++ (← start.text) ++ ")"
  | .merge, [params] => mergeLayout params
  | .verbatim, [data] => verbatimLayout Name.defaultMarkup data
  | .forward, [state, dimensions, body, returns, luid] =>
    forwardLayout state dimensions body returns luid
  | .operation, [operator, params, luid] => operationLayout operator params luid
  | _, _ => .error .missingMember

def PartForm.layout : PartForm → Layout
  | .clock, [id, isNot, pattern] => do
    let idText ← id.text
    if pattern.isTruthy then return "(" ++ idText ++ " match " ++ (← pattern.text) ++ ")"
    else if isNot.isTruthy then return "not " ++ idText
    else return idText
  | .groupItem, [expr, label] =>
    if label.isAbsent then expr.text
    else do return (← label.text) ++ ": " ++ (← expr.text)
  | .group, [items] => items.join ", "
  | .groupRenaming, [source, renamed, isShortcut] => do
    let sourceText ← source.text
    if renamed.isTruthy then return sourceText ++ ": " ++ (← renamed.text)
    else if isShortcut.isTruthy then return sourceText ++ ":"
    else return sourceText
  | .adaptation, [renamings] => do return ".(" ++ (← renamings.join ", ") ++ ")"
  | .labelOrIndex, [index] =>
    if index.term.isIdentifier then do return "." ++ (← index.text)
    else do return "[" ++ (← index.text) ++ "]"
  | .modifier, [target, expr] => do
    let targetText ←
      if target.term.isText then verbatimLayout Name.defaultMarkup target else target.join ""
    return targetText ++ " = " ++ (← expr.text)
  | .caseBranch, [pattern, expr] => do return "| " ++ (← pattern.text) ++ ": " ++ (← expr.text)
  | _, _ => .error .missingMember

end SwanModel
