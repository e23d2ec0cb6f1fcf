import SwanModel.Name.Pragma
import SwanModel.Store.Workspace

/-!
# Showing things

`Work.shown` lays open the thing at a slot. A property that cannot be read is shown as the failure.
-/

namespace SwanModel

/-- A thing laid open. -/
inductive Shown where
  /-- A plain value. -/
  | atom (t : Term)
  /-- A pragma: its text, and its key and value if it has them. -/
  | pragma (text : String) (parts : Option Name.PragmaParts)
  | list (items : List Shown)
  /-- A construct: its name and its properties. -/
  | node (title : String) (properties : List (String × Except Error Shown))
deriving Inhabited

def modelTitle : String := "Model"

namespace Work

def showDepth : Nat := 1000

def showAtom : Term → Except Error Shown
  | .pragma (.text s) => .ok (.pragma s (Name.readPragma s))
  | .pragma _ => .error .wrongKind
  | t => .ok (.atom t)

def plainKind : Term → String
  | .absent => "NoneType"
  | .truth _ => "bool"
  | .number _ => "int"
  | .real _ => "float"
  | .text _ => "str"
  | .constant c => c.family
  | .pragma _ => pragmaTitle
  | _ => "object"

def kindName (store : Store) : Slot → String
  | .ref id =>
    match store.cell? id with
    | some (.node form _ _) => form.title
    | _ => "list"
  | .atom t => plainKind t
  | .delayed _ => "function"

def ownerTitle (store : Store) : Owner → Except Error Term
  | .unset => .error .missingMember
  | .none => .ok .absent
  | .construct id => .ok (.text (kindName store (.ref id)))
  | .plain t => .ok (.text (plainKind t))
  | .model => .ok (.text modelTitle)

/-- The slots that a property of the construct at a place gives. -/
inductive Given where
  | slot (s : Slot)
  | list (items : List Slot)
  | stream (items : List Slot)

/-- The slot at a place inside a construct; a delayed body is computed first. -/
def slotAt (id : Nat) (place : List Nat) : Work Slot := do
  match (← store).place? place (.ref id) with
  | some (.delayed _) =>
    force id
    return ((← store).place? place (.ref id)).getD default
  | some slot => return slot
  | none => return .atom .absent

def readProperty (id : Nat) (property : Property) : Work Given := do
  let found ← observe fun store => do
    match ← store.view (.ref id) with
    | .node _ parts => property parts
    | _ => .error .missingMember
  match found with
  | .stored place => return .slot (← slotAt id place)
  | .copied place => return .list (← ofExcept ((← store).members (← slotAt id place)))
  | .streamed place => return .stream (← ofExcept ((← store).members (← slotAt id place)))
  | .made (.list items) => return .list (← loadAll items)
  | .made value => return .slot (← load value)
  | .same left right =>
    let store ← store
    let stored (place : List Nat) := (store.place? place (.ref id)).getD default
    return .slot (.atom (.truth (store.same (stored left) (stored right))))

/-- The properties of a construct in alphabetical order. -/
def sortedProperties (form : Form) : Properties :=
  form.properties.mergeSort fun a b => a.1 ≤ b.1

mutual

/-- Lays open the thing at a slot, down to a number of levels. -/
def showUpTo : Nat → Slot → Work Shown
  | 0, _ => throw .tooDeep
  | _ + 1, .atom t => ofExcept (showAtom t)
  | _ + 1, .delayed _ => return .atom .absent
  | levels + 1, .ref id => do
    match (← store).cell? id with
    | some (.list items) => return .list (← items.mapM (showUpTo levels))
    | some (.node form _ _) =>
      let own ← (sortedProperties form).mapM fun (name, property) => do
        return (name, ← settle (do showGiven levels (← readProperty id property)))
      let owner ← settle (do
        let store ← store
        return .atom (← ofExcept (ownerTitle store (store.owner id))))
      return .node form.title (own ++ [("owner", owner)])
    | none => throw .unknownKey

def showGiven : Nat → Given → Work Shown
  | 0, _ => throw .tooDeep
  | levels + 1, .slot s => showUpTo levels s
  | levels + 1, .list items => do return .list (← items.mapM (showUpTo levels))
  | levels + 1, .stream items => do return .list (← items.mapM (showUpTo levels))

end

def shown (slot : Slot) : Work Shown := showUpTo showDepth slot

end Work

end SwanModel
