import SwanModel.Name.Markup
import SwanModel.Name.Recognise
import SwanModel.Numeral.Literal
import SwanModel.Schema.Heading

/-!
# Properties of constructs

Most properties give a part as it is stored; `Found` tells these from copies and from values that
are made on the spot.
-/

namespace SwanModel

/-- What a property gives. A place is a list of positions, from the parts of the construct
inwards. -/
inductive Found where
  /-- The very thing that is stored at a place. -/
  | stored (place : List Nat)
  /-- A new list of the members of what is stored at a place. -/
  | copied (place : List Nat)
  /-- The members of what is stored at a place, to be taken one after the other. -/
  | streamed (place : List Nat)
  /-- A value made from the parts. -/
  | made (value : Term)
  /-- Whether one and the same thing is stored at two places. -/
  | same (left right : List Nat)

/-- How a property is read off the parts of a construct. -/
abbrev Property := List Term → Except Error Found

abbrev Properties := List (String × Property)

def partAt (parts : List Term) (i : Nat) : Term := parts.getD i .absent

namespace Property

def part (i : Nat) : Property := fun _ => .ok (.stored [i])

def copy (i : Nat) : Property := fun _ => .ok (.copied [i])

def stream (i : Nat) : Property := fun _ => .ok (.streamed [i])

def constant (value : Term) : Property := fun _ => .ok (.made value)

def flag (f : List Term → Bool) : Property := fun parts => .ok (.made (.truth (f parts)))

def value (f : List Term → Except Error Term) : Property := fun parts => (f parts).map .made

/-- Whether a part is given. -/
def given (i : Nat) : Property := flag fun parts => !(partAt parts i).isAbsent

def truthy (i : Nat) : Property := flag fun parts => (partAt parts i).isTruthy

end Property

namespace Term

/-- The parts of a construct or the members of a list. -/
def children : Term → List Term
  | .list items => items
  | .node _ parts => parts
  | _ => []

def place : List Nat → Term → Option Term
  | [], t => some t
  | i :: rest, t => t.children[i]?.bind (place rest)

def length : Term → Except Error Nat
  | .list items => .ok items.length
  | .text s => .ok s.length
  | _ => .error .wrongKind

mutual

/-- Whether two terms are the same value. Each construct in a term stands for itself, so no two are
the same. -/
def same : Term → Term → Bool
  | .absent, .absent => true
  | .truth a, .truth b => a == b
  | .number a, .number b => a == b
  | .truth a, .number b => (if a then 1 else 0) == b
  | .number a, .truth b => a == (if b then 1 else 0)
  | .text a, .text b => a == b
  | .constant a, .constant b => a == b
  | .list a, .list b => sameAll a b
  | _, _ => false

def sameAll : List Term → List Term → Bool
  | [], [] => true
  | a :: as, b :: bs => a.same b && sameAll as bs
  | _, _ => false

end

/-- Whether a term is an identifier. -/
def isIdentifier (t : Term) : Bool := t.is (.name .identifier)

/-- Whether a construct holds text that could not be read. -/
def isVerbatim (t : Term) : Bool :=
  [.name .verbatim, .type .verbatim, .pattern .verbatim, .expr .verbatim, .operator .verbatim,
    .forward .returnVerbatim, .decl .flowVerbatim, .module .verbatim].any t.is

/-- The word of an identifier: a name has an apostrophe in front. -/
def word (text isName : Term) : Term :=
  match text with
  | .text s => if isName.isTruthy then .text ("'" ++ s) else text
  | _ => text

/-- The value of a construct that has one; that of a constant is its position. -/
def valueMember : Term → Except Error Term
  | .constant c => .ok (.number c.ordinal)
  | .node (.name .identifier) parts => .ok (word (partAt parts 0) (partAt parts 3))
  | .node (.name .luid) parts => .ok (partAt parts 0)
  | .node (.expr .literal) parts => .ok (partAt parts 0)
  | .node (.pattern .char) parts => .ok (partAt parts 0)
  | .node (.pattern .int) parts => .ok (partAt parts 0)
  | .node (.decl .constant) parts => .ok (partAt parts 2)
  | .node (.forward .dimension) parts => .ok (partAt parts 3)
  | _ => .error .missingMember

end Term

/-- The texts in a list of terms, or a failure if one is no text. -/
def textsOf (terms : List Term) : Except Error (List String) :=
  terms.mapM fun
    | .text s => .ok s
    | _ => .error .wrongKind

def Found.term (parts : List Term) : Found → Except Error Term
  | .stored place => .ok (((Term.list parts).place place).getD .absent)
  | .copied place | .streamed place =>
    ((((Term.list parts).place place).getD .absent).members).map .list
  | .made value => .ok value
  | .same left right =>
    let found (place : List Nat) := ((Term.list parts).place place).getD .absent
    .ok (.truth ((found left).same (found right)))

end SwanModel
