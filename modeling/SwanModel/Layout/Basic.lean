import SwanModel.Property.Table

/-!
# Printed terms

The text of a construct is made by the layout of its form from the printed parts, so that no layout
calls another one.
-/

namespace SwanModel

/-- A term, its text and its printed children. -/
inductive Printed where
  | mk (term : Term) (text : Except Error String) (children : List Printed)

/-- How the text of a construct is made from its printed parts. -/
abbrev Layout := List Printed → Except Error String

namespace Printed

def term : Printed → Term
  | .mk term _ _ => term

def text : Printed → Except Error String
  | .mk _ text _ => text

def children : Printed → List Printed
  | .mk _ _ children => children

def isTruthy (p : Printed) : Bool := p.term.isTruthy

def isAbsent (p : Printed) : Bool := p.term.isAbsent

def place? : List Nat → Printed → Option Printed
  | [], p => some p
  | i :: rest, p => p.children[i]?.bind (place? rest)

def ofText (s : String) : Printed := .mk (.text s) (.ok s) []

/-- The printed members of a list; a text is the list of its characters. -/
def items (p : Printed) : Except Error (List Printed) :=
  match p.term with
  | .list _ => .ok p.children
  | .text s => .ok (s.toList.map fun c => ofText (String.ofList [c]))
  | _ => .error .wrongKind

def texts (p : Printed) : Except Error (List String) := do
  (← p.items).mapM text

/-- The texts of the members of a list with a separator between them. -/
def join (separator : String) (p : Printed) : Except Error String := do
  return separator.intercalate (← p.texts)

/-- Text around a part that counts as true; nothing for others. -/
def whenTrue (before : String) (p : Printed) (after : String) : Except Error String :=
  if p.isTruthy then do
    let text ← p.text
    return before ++ text ++ after
  else
    .ok ""

def exactText (p : Printed) : Except Error String :=
  match p.term with
  | .text s => .ok s
  | _ => .error .wrongKind

end Printed

def verbatimLayout (markup : String) (data : Printed) : Except Error String := do
  return Name.enclose markup (← data.text)

/-- A text kept as it is, between markups that are parts themselves. -/
def markedLayout (data markup : Printed) : Except Error String := do
  if markup.isAbsent then
    verbatimLayout Name.defaultMarkup data
  else
    let mark ← markup.text
    let text ← data.text
    return Name.enclose mark text

/-- The name of a constant, or of a construct whose name is a text, in small letters. -/
def loweredName : Term → Except Error String
  | .constant c => .ok c.name.toLower
  | .node form parts => do
    match form.property? "name" with
    | some property =>
      match ← (← property parts).term parts with
      | .text s => return s.toLower
      | _ => .error .missingMember
    | none => .error .missingMember
  | _ => .error .missingMember

/-- How a thing that is missing is written. -/
def noneText : String := "None"

end SwanModel
