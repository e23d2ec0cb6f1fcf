import SwanModel.Error
import SwanModel.Numeral.Binary64

/-!
# Parse trees

Nothing is known about a tree beforehand, so every access can fail.
-/

namespace SwanModel

/-- A tree of the text parser. -/
inductive ParseTree where
  | absent
  | truth (b : Bool)
  | number (n : Int)
  | real (x : Numeral.Binary64)
  | text (s : String)
  | list (items : List ParseTree)
  /-- An optional value that is there. -/
  | present (value : ParseTree)
  | identifier (name : ParseTree) (pragmas : ParseTree)
  /-- A text with its position. -/
  | located (text : ParseTree)
  /-- A protected text and its markup. -/
  | protectedText (text : ParseTree) (markup : ParseTree)
  /-- The identifier and the luid of a state. -/
  | identification (id luid : ParseTree)
  /-- A case of a union, a tuple or a record. -/
  | node (tag : Option String) (items : List ParseTree) (fields : List (String × ParseTree))
deriving Inhabited

namespace ParseTree

/-- Whether a tree counts as true: everything but nothing, false, zero and what is empty. -/
def isTruthy : ParseTree → Bool
  | .absent => false
  | .truth b => b
  | .number n => n != 0
  | .real x => !x.isZero
  | .text s => !s.isEmpty
  | .list items => !items.isEmpty
  | _ => true

def tag (tree : ParseTree) : Except Error String :=
  match tree with
  | .node (some t) _ _ => .ok t
  | _ => .error .missingMember

/-- The only item of a case or tuple. -/
def item (tree : ParseTree) : Except Error ParseTree :=
  match tree with
  | .node _ [value] _ => .ok value
  | _ => .error .missingMember

/-- An item, counted from one, of a case or tuple with more than one. -/
def itemAt (tree : ParseTree) (n : Nat) : Except Error ParseTree :=
  match tree with
  | .node _ (first :: second :: rest) _ =>
    if n = 0 then .error .missingMember
    else ((first :: second :: rest)[n - 1]?.map Except.ok).getD (.error .missingMember)
  | _ => .error .missingMember

def field (tree : ParseTree) (name : String) : Except Error ParseTree :=
  match tree with
  | .node _ _ fields => ((fields.lookup name).map Except.ok).getD (.error .missingMember)
  | _ => .error .missingMember

/-- The value inside an option, nothing if there is none. -/
def value (tree : ParseTree) : Except Error ParseTree :=
  match tree with
  | .present value => .ok value
  | tree => if tree.isTruthy then .error .missingMember else .ok .absent

/-- The members of a list; a text is the list of its characters. -/
def members (tree : ParseTree) : Except Error (List ParseTree) :=
  match tree with
  | .list items => .ok items
  | .text s => .ok (s.toList.map fun c => .text (String.ofList [c]))
  | _ => .error .wrongKind

def textData (tree : ParseTree) : Except Error ParseTree :=
  match tree with
  | .located s => .ok s
  | _ => .error .missingMember

def rawText (tree : ParseTree) : Except Error ParseTree :=
  match tree with
  | .protectedText s _ => .ok s
  | _ => .error .missingMember

def rawMarkup (tree : ParseTree) : Except Error ParseTree :=
  match tree with
  | .protectedText _ markup => .ok markup
  | _ => .error .missingMember

/-- Whether a flag is set; the number one counts as set. -/
def isSet : ParseTree → Bool
  | .truth b => b
  | .number n => n == 1
  | .real x => x == .one
  | _ => false

mutual

def height : ParseTree → Nat
  | .list items => heights items + 1
  | .present value => value.height + 1
  | .node _ items fields => max (heights items) (fieldHeights fields) + 1
  | _ => 1

def heights : List ParseTree → Nat
  | [] => 0
  | tree :: rest => max tree.height (heights rest)

def fieldHeights : List (String × ParseTree) → Nat
  | [] => 0
  | (_, tree) :: rest => max tree.height (fieldHeights rest)

end

theorem heights_append (first second : List ParseTree) :
    heights (first ++ second) = max (heights first) (heights second) := by
  induction first with
  | nil => simp [heights]
  | cons tree first ih => rw [List.cons_append, heights, heights, ih, Nat.max_assoc]

end ParseTree

end SwanModel
