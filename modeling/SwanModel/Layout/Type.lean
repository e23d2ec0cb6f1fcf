import SwanModel.Layout.Basic

/-! # Layout of types -/

namespace SwanModel

def bracesLayout (items : Printed) : Except Error String := do
  return "\x7b" ++ (← items.join ", ") ++ "\x7d"

def variantTypeLayout (type : Printed) : Except Error String :=
  if type.term.is (.type .struct) then type.text
  else if type.isTruthy then do return "\x7b " ++ (← type.text) ++ " \x7d"
  else .ok "\x7b\x7d"

def TypeForm.layout : TypeForm → Layout
  | .typeVariable, [name] => name.text
  | .predefined, [type] => loweredName type.term
  | .sized, [size, isSigned] => do
    return (if isSigned.isTruthy then "signed <<" else "unsigned <<") ++ (← size.text) ++ ">>"
  | .named, [path] => path.text
  | .field, [label, type] => do return (← label.text) ++ ": " ++ (← type.text)
  | .struct, [fields] => bracesLayout fields
  | .array, [type, size] => do return (← type.text) ++ "^" ++ (← size.text)
  | .verbatim, [data] => verbatimLayout Name.defaultMarkup data
  | .exprDefinition, [type] => type.text
  | .enumeration, [tags] => do return "enum " ++ (← bracesLayout tags)
  | .variantCase, [tag, type] => do
    let typeText ← variantTypeLayout type
    return (← tag.text) ++ " " ++ typeText
  | .variants, [tags] => tags.join " | "
  | .groupType, [type] => type.text
  | .groupNamed, [label, type] => do return (← label.text) ++ ": " ++ (← type.text)
  | .groupList, [positional, labelled] => do
    let front ← positional.texts
    let back ← labelled.texts
    return "(" ++ ", ".intercalate (front ++ back) ++ ")"
  | _, _ => .error .missingMember

end SwanModel
