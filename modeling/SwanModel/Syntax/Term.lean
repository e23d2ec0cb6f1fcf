import SwanModel.Numeral.Shortest
import SwanModel.Syntax.Constant
import SwanModel.Syntax.Form
import SwanModel.Syntax.ParseTree
import SwanModel.Text.Quoted

/-!
# Terms

Terms are loosely typed, because a part of a construct may be left out or be anything that was put
there.
-/

namespace SwanModel

/-- A piece of a program. -/
inductive Term where
  | absent
  | truth (b : Bool)
  | number (n : Int)
  | real (x : Numeral.Binary64)
  | text (s : String)
  | constant (c : Constant)
  /-- A pragma with its text. -/
  | pragma (text : Term)
  /-- The place where an identifier is expected but none is kept. -/
  | anyIdentifier
  /-- A parse tree that is not converted. -/
  | raw (tree : ParseTree)
  /-- The body of an operator that is still to be computed; the number names the operator. -/
  | pending (operator : Nat)
  /-- A list or a construct inside itself. -/
  | endless (isList : Bool)
  | list (items : List Term)
  /-- A construct with its parts. -/
  | node (form : Form) (parts : List Term)
deriving Inhabited

namespace Term

/-- Whether a term counts as true: everything but nothing, false, zero and what is empty. -/
def isTruthy : Term → Bool
  | .absent => false
  | .truth b => b
  | .number n => n != 0
  | .real x => !x.isZero
  | .text s => !s.isEmpty
  | .raw tree => tree.isTruthy
  | .list items => !items.isEmpty
  | _ => true

def isAbsent : Term → Bool
  | .absent => true
  | _ => false

def isText : Term → Bool
  | .text _ => true
  | _ => false

def isList : Term → Bool
  | .list _ => true
  | _ => false

def form? : Term → Option Form
  | .node form _ => some form
  | _ => none

def is (form : Form) (t : Term) : Bool := t.form? == some form

/-- The members of a list; a text is the list of its characters. -/
def members : Term → Except Error (List Term)
  | .list items => .ok items
  | .text s => .ok (s.toList.map fun c => .text (String.ofList [c]))
  | _ => .error .wrongKind

mutual

def ofTree : ParseTree → Term
  | .absent => .absent
  | .truth b => .truth b
  | .number n => .number n
  | .real x => .real x
  | .text s => .text s
  | .list items => .list (ofTrees items)
  | tree => .raw tree

def ofTrees : List ParseTree → List Term
  | [] => []
  | tree :: rest => ofTree tree :: ofTrees rest

end

end Term

end SwanModel
