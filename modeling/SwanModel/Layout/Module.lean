import SwanModel.Layout.Basic

/-! # Layout of declarations and modules -/

namespace SwanModel

def flowsLayout (flows : List Printed) : Except Error String := do
  let text := "; ".intercalate (← flows.mapM Printed.text)
  return if text.isEmpty then "()" else "(\n  " ++ text ++ "\n)"

def sizeLayout (size : Printed) : Except Error String := do
  let text ← size.text
  return Name.protect (← size.term.isProtected) Name.defaultMarkup text

def sizeParametersLayout (sizes : Printed) : Except Error String := do
  let items ← sizes.items
  if items.isEmpty then return ""
  return " <<" ++ ", ".intercalate (← items.mapM sizeLayout) ++ ">>"

def spacedLayout (members : Printed) : Except Error String := do
  let texts ← members.texts
  return if texts.isEmpty then "" else " " ++ " ".intercalate texts

def signatureLayout (id isNode inputs outputs sizes constraints specialization pragmas : Printed) :
    Except Error String := do
  let idText ← id.text
  let ins ← inputs.items
  let outs ← outputs.items
  let insText ← flowsLayout ins
  let outsText ← flowsLayout outs
  let sizesText ← sizeParametersLayout sizes
  let constraintsText ← spacedLayout constraints
  let specializationText ← specialization.whenTrue " specialize " ""
  let pragmasText ← spacedLayout pragmas
  return (if isNode.isTruthy then "node" else "function") ++ pragmasText ++ " " ++ idText ++ sizesText
    ++ " " ++ insText ++ " returns " ++ outsText ++ constraintsText ++ specializationText

/-- The body of an operator, on a line of its own. -/
def bodyLayout (body : Printed) : Except Error String :=
  match body.term with
  | .pending k => .error (.pending k)
  | term =>
    if Operator.equationForms.any term.is then do return "\n  " ++ (← body.text)
    else if term.is (.scope .scope) then do return "\n" ++ (← body.text)
    else .ok ";"

def flowLayout (id isClock isProbe type clock fallback last : Printed) : Except Error String := do
  let idText ← id.text
  let typeText ← type.whenTrue ": " ""
  let clockText ← clock.whenTrue " when " ""
  let fallbackText ← fallback.whenTrue " default = " ""
  let lastText ← last.whenTrue " last = " ""
  return (if isClock.isTruthy then "clock " else "") ++ (if isProbe.isTruthy then "probe " else "")
    ++ idText ++ typeText ++ clockText ++ fallbackText ++ lastText

def DeclForm.layout : DeclForm → Layout
  | .constant, [id, sort, value] => do
    return (← id.text) ++ ": " ++ (← sort.text) ++ (← value.whenTrue " = " "")
  | .sensor, [id, sort] => do return (← id.text) ++ ": " ++ (← sort.text)
  | .group, [id, sort] => do return (← id.text) ++ " = " ++ (← sort.text)
  | .type, [id, definition] => do return (← id.text) ++ (← definition.whenTrue " = " "")
  | .flowDecl, [id, isClock, isProbe, sort, clock, fallback, last] =>
    flowLayout id isClock isProbe sort clock fallback last
  | .flowVerbatim, [data] => verbatimLayout flowMarkup data
  | .typeConstraint, [types, kind] => do
    let typesText ←
      if types.term.isText then verbatimLayout Name.defaultMarkup types else types.join ", "
    return "where " ++ typesText ++ " " ++ (← loweredName kind.term)
  | .signature, [id, isNode, inputs, outputs, sizes, constraints, specialization, pragmas] => do
    let heading ←
      signatureLayout id isNode inputs outputs sizes constraints specialization pragmas
    return heading ++ ";"
  | .operator,
      [id, isNode, inputs, outputs, body, sizes, constraints, specialization, pragmas, _] => do
    let heading ←
      signatureLayout id isNode inputs outputs sizes constraints specialization pragmas
    return heading ++ (← bodyLayout body)
  | _, _ => .error .missingMember

/-- Declarations of one kind behind their keyword. -/
def declarationsLayout (keyword : String) (items : Printed) : Except Error String := do
  return keyword ++ " " ++ (← items.join "; ") ++ ";"

/-- A module: first what it uses, then its declarations, one a line. -/
def moduleLayout (uses declarations : Printed) : Except Error String := do
  let front ← uses.texts
  let back ← declarations.texts
  return "\n".intercalate (front ++ back)

def ModuleForm.layout : ModuleForm → Layout
  | .types, [items] => declarationsLayout "type" items
  | .constants, [items] => declarationsLayout "const" items
  | .sensors, [items] => declarationsLayout "sensor" items
  | .groups, [items] => declarationsLayout "group" items
  | .use, [path, name] => do return "use " ++ (← path.text) ++ (← name.whenTrue " as " "") ++ ";"
  | .verbatim, [markup, data] => markedLayout data markup
  | .bare, [_, uses, declarations]
  | .body, [_, uses, declarations]
  | .interface, [_, uses, declarations] => moduleLayout uses declarations
  | _, _ => .error .missingMember

end SwanModel
