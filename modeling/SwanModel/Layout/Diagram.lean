import SwanModel.Layout.Basic

/-! # Layout of diagrams and scope sections -/

namespace SwanModel

def groupOperationWord : Term → Except Error String
  | .constant (.groupOperation op) => .ok op.text
  | other => loweredName other

/-- A diagram object: its luid, its description and its local objects. -/
def objectLayout (luid locals : Printed) (description : Except Error String) :
    Except Error String := do
  let front ← luid.whenTrue "" " "
  let inner ← locals.join "\n"
  let back := if inner.isEmpty then "" else "\nwhere\n" ++ inner
  return "(" ++ front ++ (← description) ++ back ++ ")"

def blockLayout (content luid : Printed) : Except Error String :=
  if content.term.isVerbatim then do return "block " ++ (← content.text)
  else do
    let luidText ← luid.whenTrue " " ""
    return "block (" ++ (← content.text) ++ ")" ++ luidText

def connectionLayout (port adaptation : Printed) : Except Error String :=
  if port.isAbsent then .ok "()"
  else do return (← port.text) ++ (← adaptation.whenTrue " " "")

def wireLayout (source targets : Printed) : Except Error String := do
  let goals ← targets.join ", "
  return "wire " ++ (← source.text) ++ " => " ++ goals

/-- What a diagram object is, without its luid and its local objects. -/
def DiagramForm.description : DiagramForm → Layout
  | .object, _ => .error (.reported "DiagramObject.to_str() call")
  | .expression, expr :: _ => do return "expr " ++ (← expr.text)
  | .definition, lhs :: _ => do return "def " ++ (← lhs.text)
  | .block, content :: luid :: _ => blockLayout content luid
  | .wire, source :: targets :: _ => wireLayout source targets
  | .group, operation :: _ => do return "group " ++ (← groupOperationWord operation.term)
  | .sectionObject, content :: _ => content.text
  | _, _ => .error .missingMember

def DiagramForm.layout (form : DiagramForm) (parts : List Printed) : Except Error String :=
  match form, parts with
  | .diagram, [objects] => do
    let texts ← objects.join "\n"
    return if texts.isEmpty then "diagram" else "diagram\n" ++ texts
  | .connection, [port, adaptation] => connectionLayout port adaptation
  | .object, [luid, locals]
  | .expression, [_, luid, locals]
  | .definition, [_, luid, locals]
  | .block, [_, _, luid, locals]
  | .wire, [_, _, luid, locals]
  | .group, [_, luid, locals]
  | .sectionObject, [_, luid, locals] => objectLayout luid locals (form.description parts)
  | _, _ => .error .missingMember

/-- A section: its keyword and its items, one a line. -/
def sectionText (keyword terminator : String) (items : List String) : String :=
  keyword ++ "\n" ++ "\n".intercalate (items.map fun item => "    " ++ item ++ terminator)

def sectionLayout (keyword terminator : String) (items : Printed) : Except Error String := do
  return sectionText keyword terminator (← items.texts)

def SectionForm.layout : SectionForm → Layout
  | .scope, [sections] => do return "\x7b\n" ++ (← sections.join "\n") ++ "\n\x7d"
  | .equations, [items] => sectionLayout "let" "" items
  | .variables, [items] => sectionLayout "var" ";" items
  | .emission, [flows, condition] => do return (← flows.join ", ") ++ (← condition.whenTrue " if " "")
  | .emissions, [items] => sectionLayout "emit" ";" items
  | .property, [id, expr] => do return (← id.text) ++ ": " ++ (← expr.text)
  | .assumptions, [items] => sectionLayout "assume" ";" items
  | .guarantees, [items] => sectionLayout "guarantee" ";" items
  | .verbatim, [data] => verbatimLayout Name.defaultMarkup data
  | _, _ => .error .missingMember

end SwanModel
