import SwanModel.Layout.Basic

/-! # Layout of names -/

namespace SwanModel

def pragmasLayout (pragmas : Printed) : Except Error String :=
  if pragmas.isTruthy then do return (← pragmas.join " ") ++ " " else .ok ""

def Path.printedPragmas (ids : Printed) : Except Error Printed := do
  match ← Path.pragmas ids.term with
  | .stored (_ :: place) | .copied (_ :: place) =>
    return (ids.place? place).getD (.mk .absent (.ok noneText) [])
  | _ => return .mk (.list []) (.ok "[]") []

/-- A path: its identifiers with colons between them, or a text kept as it is. -/
def pathLayout (ids : Printed) : Except Error String :=
  if ids.term.isList then do
    let front ← pragmasLayout (← Path.printedPragmas ids)
    match ← Path.fullName ids.term with
    | .text name => return front ++ name
    | _ => .error .wrongKind
  else
    verbatimLayout Name.defaultMarkup ids

def NameForm.layout : NameForm → Layout
  | .identifier, [value, pragmas, _, isName] => do
    let front ← pragmasLayout pragmas
    return front ++ (if isName.isTruthy then "'" else "") ++ (← value.text)
  | .path, [ids] => pathLayout ids
  | .luid, [value] => do return "#" ++ (← value.exactText)
  | .verbatim, [data, markup] => markedLayout data markup
  | _, _ => .error .missingMember

end SwanModel
