import SwanModel.Convert.Table
import SwanModel.Store.Basic

/-!
# Workspaces

`load` puts a term into the store and `build` carries out a blueprint. `force` computes the body of
an operator that was delayed, and `observe` the bodies that an answer depends on.
-/

namespace SwanModel

/-- A store, the names bound to things in it, and what reading has left behind. -/
structure Workspace where
  store : Store := {}
  names : List (String × Slot) := []
  reading : Reading := {}

/-- A computation in a workspace. What it has changed stays changed when it fails. -/
abbrev Work := ReaderT Reader (ExceptT Error (StateM Workspace))

namespace Work

def ofExcept (x : Except Error α) : Work α :=
  match x with
  | .ok a => return a
  | .error e => throw e

/-- A conversion, as a computation in a workspace. -/
def ofConversion (c : Conversion α) : Work α := do
  let reader ← read
  let workspace ← get
  let (result, reading) := (c reader).run workspace.reading
  set { workspace with reading := reading }
  ofExcept result

def store : Work Store := return (← get).store

def modifyStore (f : Store → Store) : Work Unit :=
  modify fun w => { w with store := f w.store }

def add (cell : Cell) : Work Slot := do
  let (id, store) := (← get).store.add cell
  modify fun w => { w with store := store }
  return .ref id

def log (lines : List LogLine) : Work Unit :=
  modify fun w => { w with reading := { w.reading with logs := w.reading.logs ++ lines } }

/-- The outcome of a computation; a failure that is reported goes to the log. -/
def settle (x : Work α) : Work (Except Error α) := do
  try
    return .ok (← x)
  catch e =>
    log e.log
    return .error e

/-! ### New constructs -/

/-- Makes a construct the owner of the thing at a slot. -/
def adopt (owner : Slot) (slot : Slot) : Work Unit := do
  match slot, owner with
  | .ref id, .ref ownerId =>
    match (← store).cell? id with
    | some (.node form slots _) =>
      modifyStore (·.set id (.node form slots (.construct ownerId)))
    | _ => throw .missingMember
  | .atom t, _ => if t.isAdoptable then return () else throw .missingMember
  | _, _ => throw .missingMember

def carryOut (new : Slot) (args slots : List Slot) (adoption : Adoption) : Work Unit := do
  match adoption with
  | .argument i => adopt new (args.getD i default)
  | .argumentMembers i =>
    (← ofExcept ((← store).members (args.getD i default))).forM (adopt new)
  | .partMembers i =>
    (← ofExcept ((← store).members (slots.getD i default))).forM (adopt new)

/-- Adds a construct with its parts and lets it adopt. -/
def addNode (form : Form) (args slots : List Slot) : Work Slot := do
  let owner := if form.startsUnowned then Owner.none else .unset
  let new ← add (.node form slots owner)
  form.adoptions.forM (carryOut new args slots)
  return new

mutual

def load : Term → Work Slot
  | .list items => do add (.list (← loadAll items))
  | .node form parts => do
    let slots ← loadAll parts
    addNode form slots slots
  | .raw tree => return .delayed (.tree tree)
  | .absent => return .atom .absent
  | .truth b => return .atom (.truth b)
  | .number n => return .atom (.number n)
  | .real x => return .atom (.real x)
  | .text s => return .atom (.text s)
  | .constant c => return .atom (.constant c)
  | .pragma content => return .atom (.pragma content)
  | .anyIdentifier => return .atom .anyIdentifier
  | .pending k => return .atom (.pending k)
  | .endless isList => return .atom (.endless isList)

def loadAll : List Term → Work (List Slot)
  | [] => return []
  | t :: rest => do
    let slot ← load t
    return slot :: (← loadAll rest)

end

/-- The part of a new construct that a filling stands for. -/
def fill (args : List Slot) : Filling → Work Slot
  | .given i => return args.getD i default
  | .fresh t => load t

def construct (form : Form) (args : List Slot) : Work Slot := do
  let store ← store
  let views ← ofExcept (args.mapM store.view)
  let slots ← (← ofExcept (form.fill views)).mapM (fill args)
  addNode form args slots

/-- The arguments in the order of the parameters; each is given by name or has a default. -/
def arrange (parameters : List (String × Option Term)) (args : List (String × Slot)) :
    Except Error (List Slot) :=
  if args.all fun arg => parameters.any (·.1 == arg.1) then
    parameters.mapM fun (name, fallback) =>
      match args.lookup name, fallback with
      | some slot, _ => .ok slot
      | none, some t => .ok (.atom t)
      | none, none => .error .wrongKind
  else
    .error .wrongKind

def pragmaTitle : String := "Pragma"

/-- What a blueprint builds by name. -/
inductive Buildable where
  | form (f : Form)
  | pragma

def Buildable.ofName? (name : String) : Option Buildable :=
  if name == pragmaTitle then some .pragma else (Form.ofName? name).map .form

def buildFrom (kind : Buildable) (args : List (String × Slot)) : Work Slot := do
  match kind with
  | .form form =>
    let slots ← ofExcept (arrange form.heading.parameters args)
    construct form slots
  | .pragma =>
    match ← ofExcept (arrange [Heading.needed "pragma"] args) with
    | [slot] => return .atom (.pragma (← ofExcept ((← store).view slot)))
    | _ => throw .wrongKind

def constantNamed (family name : String) : Except Error Term :=
  match Constant.find? family name with
  | some c => .ok (.constant c)
  | none => if Constant.isFamily family then .error .unknownKey else .error .missingMember

mutual

def build : Blueprint → Work Slot
  | .atom t => load t
  | .constant family name => do return .atom (← ofExcept (constantNamed family name))
  | .list items => do add (.list (← buildAll items))
  | .construct name args =>
    match Buildable.ofName? name with
    | some kind => do buildFrom kind (← buildArgs args)
    | none => throw .missingMember
  | .ref name => do
    match (← get).names.lookup name with
    | some slot => return slot
    | none => throw .unknownKey
  | .later b => return .delayed (.plan b)

def buildAll : List Blueprint → Work (List Slot)
  | [] => return []
  | b :: rest => do
    let slot ← build b
    return slot :: (← buildAll rest)

def buildArgs : List (String × Blueprint) → Work (List (String × Slot))
  | [] => return []
  | (name, b) :: rest => do
    let slot ← build b
    return (name, slot) :: (← buildArgs rest)

end

/-! ### Delayed bodies -/

/-- Computes a delayed body. A body that is converted from a tree gets the operator as its owner. -/
def compute (operator : Nat) : Delayed → Work Slot
  | .tree tree => do
    let slot ← load (← ofConversion (convert .operatorBody tree))
    match slot with
    | .ref _ => adopt (.ref operator) slot
    | _ => pure ()
    return slot
  | .plan b => build b

/-- Computes the body of an operator if it is delayed. A body that cannot be computed stays
delayed. -/
def force (operator : Nat) : Work Unit := do
  match (← store).cell? operator with
  | some (.node _ slots _) =>
    match slots[Operator.bodyIndex]? with
    | some (.delayed d) =>
      let body ← compute operator d
      modifyStore fun store =>
        match store.cell? operator with
        | some (.node form slots owner) =>
          store.set operator (.node form (slots.set Operator.bodyIndex body) owner)
        | _ => store
    | _ => return ()
  | _ => return ()

end Work

mutual

def Blueprint.laterCount : Blueprint → Nat
  | .later b => b.laterCount + 1
  | .list items => Blueprint.laterCounts items
  | .construct _ args => Blueprint.argLaterCounts args
  | _ => 0

def Blueprint.laterCounts : List Blueprint → Nat
  | [] => 0
  | b :: rest => b.laterCount + Blueprint.laterCounts rest

def Blueprint.argLaterCounts : List (String × Blueprint) → Nat
  | [] => 0
  | (_, b) :: rest => b.laterCount + Blueprint.argLaterCounts rest

end

/-- How many bodies have to be computed for a delayed one, at most. -/
def Delayed.weight : Delayed → Nat
  | .tree _ => 1
  | .plan b => b.laterCount + 1

def Slot.weight : Slot → Nat
  | .delayed d => d.weight
  | _ => 0

def Cell.weight : Cell → Nat
  | .list slots | .node _ slots _ => slots.foldr (fun slot n => slot.weight + n) 0

/-- How many bodies are delayed in a store, at most. -/
def Store.weight (store : Store) : Nat :=
  store.cells.foldr (fun cell n => cell.weight + n) 0

namespace Work

/-- Asks a question about the store. When the answer depends on a delayed body, the body is computed
and the question asked again, up to a number of times. -/
def observeUpTo (ask : Store → Except Error α) : Nat → Work α
  | 0 => do ofExcept (ask (← store))
  | times + 1 => do
    match ask (← store) with
    | .error (.pending k) =>
      force k
      observeUpTo ask times
    | answer => ofExcept answer

/-- Asks a question about the store and computes the bodies that the answer depends on. -/
def observe (ask : Store → Except Error α) : Work α := do
  observeUpTo ask (← store).weight

def view (slot : Slot) : Work Term := do ofExcept ((← store).view slot)

def print (slot : Slot) : Work String := observe fun store => do (← store.view slot).print

end Work

end SwanModel
