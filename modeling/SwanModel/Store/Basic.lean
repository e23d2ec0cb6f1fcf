import SwanModel.Build.Adoption

/-!
# Stores

A store holds constructs and lists that have an identity: they may be shared, changed, and have an
owner.
-/

namespace SwanModel

/-- How a construct is to be built. -/
inductive Blueprint where
  /-- A plain value. -/
  | atom (t : Term)
  /-- A constant, by the name of its kind and its own. -/
  | constant (family name : String)
  | list (items : List Blueprint)
  /-- A construct by name, with arguments by name. -/
  | construct (name : String) (args : List (String × Blueprint))
  /-- The thing that is bound to a name. -/
  | ref (name : String)
  /-- To be built when it is needed. -/
  | later (b : Blueprint)
deriving Inhabited

/-- The body of an operator that is not yet computed. -/
inductive Delayed where
  /-- To be converted from the parse tree of the operator. -/
  | tree (tree : ParseTree)
  /-- To be built. -/
  | plan (b : Blueprint)

/-- The owner of a construct. -/
inductive Owner where
  /-- The construct never got a place for an owner. -/
  | unset
  | none
  /-- What is at a place of the store. -/
  | construct (id : Nat)
  /-- A plain value. -/
  | plain (t : Term)
  /-- A model, which is outside the store. -/
  | model
deriving Inhabited

/-- A value in the store. -/
inductive Slot where
  | atom (t : Term)
  | ref (id : Nat)
  | delayed (d : Delayed)

instance : Inhabited Slot := ⟨.atom .absent⟩

/-- A thing with identity. -/
inductive Cell where
  | list (items : List Slot)
  | node (form : Form) (slots : List Slot) (owner : Owner)

instance : Inhabited Cell := ⟨.list []⟩

/-- Constructs and lists by number. -/
structure Store where
  cells : Array Cell := #[]

namespace Store

def cell? (store : Store) (id : Nat) : Option Cell := store.cells[id]?

/-- Adds a cell; its number is the number of cells before. -/
def add (store : Store) (cell : Cell) : Nat × Store :=
  (store.cells.size, ⟨store.cells.push cell⟩)

def set (store : Store) (id : Nat) (cell : Cell) : Store := ⟨store.cells.setIfInBounds id cell⟩

theorem cell?_add (store : Store) (cell : Cell) :
    (store.add cell).2.cell? (store.add cell).1 = some cell := by
  simp [add, cell?]

/-- Adding a cell changes no other. -/
theorem cell?_add_of_lt (store : Store) (cell : Cell) {id : Nat} (h : id < store.cells.size) :
    (store.add cell).2.cell? id = store.cell? id := by
  simp [add, cell?, Array.getElem?_push, Nat.ne_of_lt h]

/-- Changing a cell changes no other. -/
theorem cell?_set_of_ne (store : Store) (cell : Cell) {id other : Nat} (h : id ≠ other) :
    (store.set id cell).cell? other = store.cell? other := by
  simp [set, cell?, Array.getElem?_setIfInBounds_ne, h]

def setOwner (store : Store) (id : Nat) (owner : Owner) : Store :=
  match store.cell? id with
  | some (.node form slots _) => store.set id (.node form slots owner)
  | _ => store

def owner (store : Store) (id : Nat) : Owner :=
  match store.cell? id with
  | some (.node _ _ owner) => owner
  | _ => .unset

def form? (store : Store) : Slot → Option Form
  | .ref id =>
    match store.cell? id with
    | some (.node form _ _) => some form
    | _ => Option.none
  | _ => Option.none

def isList (store : Store) (id : Nat) : Bool :=
  match store.cell? id with
  | some (.list _) => true
  | _ => false

/-- The term at a slot that lies inside some cells, down to a number of levels. The body of an
operator that is not yet computed is shown as pending, and a cell inside itself as endless. -/
def viewInside (store : Store) : Nat → List Nat → Slot → Except Error Term
  | _, _, .atom t => .ok t
  | _, _, .delayed _ => .ok .absent
  | 0, _, .ref id => .ok (.endless (store.isList id))
  | levels + 1, outer, .ref id =>
    if outer.contains id then .ok (.endless (store.isList id))
    else
      match store.cell? id with
      | some (.list items) =>
        return .list (← items.mapM (viewInside store levels (id :: outer)))
      | some (.node form slots _) =>
        return .node form (← slots.mapM fun
          | .delayed _ => .ok (.pending id)
          | slot => viewInside store levels (id :: outer) slot)
      | Option.none => .error .unknownKey

def view (store : Store) (slot : Slot) : Except Error Term :=
  store.viewInside (store.cells.size + 1) [] slot

/-- The members of the list at a slot; a text is the list of its characters. -/
def members (store : Store) : Slot → Except Error (List Slot)
  | .ref id =>
    match store.cell? id with
    | some (.list items) => .ok items
    | _ => .error .wrongKind
  | .atom t => t.members.map (·.map .atom)
  | .delayed _ => .error .wrongKind

/-- Whether two slots hold one and the same thing, or lists of the same things, down to a number of
levels. -/
def sameUpTo (store : Store) : Nat → Slot → Slot → Bool
  | levels + 1, .ref a, .ref b =>
    a == b ||
      match store.cell? a, store.cell? b with
      | some (.list items), some (.list others) =>
        items.length == others.length &&
          (items.zip others).all fun (x, y) => sameUpTo store levels x y
      | _, _ => false
  | _, .atom s, .atom t => s.same t
  | _, _, _ => false

/-- Whether two slots hold one and the same thing, or lists of the same things. -/
def same (store : Store) (a b : Slot) : Bool := store.sameUpTo (store.cells.size + 1) a b

/-- The slot at a position inside the cell that a slot refers to. -/
def child? (store : Store) (slot : Slot) (i : Nat) : Option Slot :=
  match slot with
  | .ref id =>
    match store.cell? id with
    | some (.list items) => items[i]?
    | some (.node _ slots _) => slots[i]?
    | Option.none => Option.none
  | _ => Option.none

/-- The slot at a place inside the construct at a slot. -/
def place? (store : Store) : List Nat → Slot → Option Slot
  | [], slot => some slot
  | i :: rest, slot => (store.child? slot i).bind (store.place? rest)

end Store

end SwanModel
