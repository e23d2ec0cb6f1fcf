import SwanModel.Layout.Diagram
import SwanModel.Layout.Equation
import SwanModel.Layout.Expr
import SwanModel.Layout.Module
import SwanModel.Layout.Name
import SwanModel.Layout.Operator
import SwanModel.Layout.Type

/-!
# The text of a term

`Term.printed` prints a term from the inside out.
-/

namespace SwanModel

def Form.layout : Form → Layout
  | .name f => f.layout
  | .type f => f.layout
  | .pattern f => f.layout
  | .expr f => f.layout
  | .part f => f.layout
  | .operator f => f.layout
  | .forward f => f.layout
  | .equation f => f.layout
  | .diagram f => f.layout
  | .scope f => f.layout
  | .decl f => f.layout
  | .module f => f.layout

def Form.isSilent : Form → Bool
  | .name .item | .name .declaration => true
  | .type .bare | .type .definition | .type .groupBare => true
  | .pattern .bare | .expr .bare | .operator .bare | .operator .bareExpression => true
  | .forward .returnBare => true
  | .equation .bare | .equation .machineItem | .equation .fork | .equation .branch => true
  | .equation .ifBranch => true
  | .scope .bare | .decl .flow | .module .global => true
  | _ => false

/-- The text of a construct from its printed parts. -/
def Form.text (form : Form) (parts : List Printed) : Except Error String :=
  if form.isSilent then .ok ("<" ++ form.title ++ ">") else form.layout parts

def truthText (b : Bool) : String := if b then "True" else "False"

/-- The text of a term that is no list and no construct. -/
def Term.atomText : Term → Except Error String
  | .absent => .ok noneText
  | .truth b => .ok (truthText b)
  | .number n => .ok (Numeral.textOfInt n)
  | .real x => .ok x.text
  | .text s => .ok s
  | .constant c => .ok c.fullName
  | .pragma (.text s) => .ok s
  | .pragma _ => .error .wrongKind
  | .anyIdentifier => .ok "<built-in function id>"
  | .pending k => .error (.pending k)
  | .endless _ => .error .tooDeep
  | .raw _ | .list _ | .node _ _ => .error .wrongKind

/-- A printed term as it stands in the text of a list: texts are quoted, and a list inside itself is
not written again. -/
def Printed.inList (p : Printed) : Except Error String :=
  match p.term with
  | .text s => .ok (Text.quoted s)
  | .endless true => .ok "[...]"
  | .constant c => .ok ("<" ++ c.fullName ++ ": " ++ Numeral.textOfInt c.ordinal ++ ">")
  | _ => p.text

def listText (items : List Printed) : Except Error String := do
  return "[" ++ ", ".intercalate (← items.mapM Printed.inList) ++ "]"

mutual

def Term.printed : Term → Printed
  | .list items =>
    let children := Term.printedAll items
    .mk (.list items) (listText children) children
  | .node form parts =>
    let children := Term.printedAll parts
    .mk (.node form parts) (form.text children) children
  | .absent => .mk .absent (Term.atomText .absent) []
  | .truth b => .mk (.truth b) (Term.atomText (.truth b)) []
  | .number n => .mk (.number n) (Term.atomText (.number n)) []
  | .real x => .mk (.real x) (Term.atomText (.real x)) []
  | .text s => .mk (.text s) (Term.atomText (.text s)) []
  | .constant c => .mk (.constant c) (Term.atomText (.constant c)) []
  | .pragma content => .mk (.pragma content) (Term.atomText (.pragma content)) []
  | .anyIdentifier => .mk .anyIdentifier (Term.atomText .anyIdentifier) []
  | .raw tree => .mk (.raw tree) (Term.atomText (.raw tree)) []
  | .pending k => .mk (.pending k) (Term.atomText (.pending k)) []
  | .endless isList => .mk (.endless isList) (Term.atomText (.endless isList)) []

def Term.printedAll : List Term → List Printed
  | [] => []
  | t :: rest => t.printed :: Term.printedAll rest

end

def Term.print (t : Term) : Except Error String := t.printed.text

theorem Term.printedAll_eq_map (items : List Term) :
    Term.printedAll items = items.map Term.printed := by
  induction items with
  | nil => simp [Term.printedAll]
  | cons t rest ih => simp [Term.printedAll, ih]

/-- A construct is printed by the layout of its form. -/
theorem Term.print_node (form : Form) (parts : List Term) :
    (Term.node form parts).print = form.text (parts.map Term.printed) := by
  simp [Term.print, Term.printed, Printed.text, Term.printedAll_eq_map]

end SwanModel
