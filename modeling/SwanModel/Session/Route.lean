import SwanModel.Store.Owners
import SwanModel.Store.Show

/-!
# Routes

A route leads from a bound name to a thing, through properties and positions in lists.
-/

namespace SwanModel

/-- A step of a route. -/
inductive Turn where
  | property (name : String)
  | index (i : Int)
deriving DecidableEq, Repr

/-- A way from a name to a thing. -/
structure Route where
  start : String
  turns : List Turn

namespace Work

def ownerSlot (store : Store) (id : Nat) : Except Error Slot :=
  match store.owner id with
  | .unset => .error .missingMember
  | .none => .ok (.atom .absent)
  | .construct ownerId => .ok (.ref ownerId)
  | .plain t => .ok (.atom t)
  | .model => .ok (.atom (.text modelTitle))

/-- A property of a constant: its name, or its position among those of its kind. -/
def constantProperty (name : String) (c : Constant) : Except Error Term :=
  match name with
  | "name" => .ok (.text c.name)
  | "value" => .ok (.number c.ordinal)
  | _ => .error .missingMember

def property (name : String) (slot : Slot) : Work Given := do
  match (← store).form? slot, slot with
  | _, .atom (.constant c) => return .slot (.atom (← ofExcept (constantProperty name c)))
  | some form, .ref id =>
    if name == "owner" then return .slot (← ofExcept (ownerSlot (← store) id))
    match form.property? name with
    | some p => readProperty id p
    | none => throw .missingMember
  | _, _ => throw .missingMember

/-- The member at a position; positions below zero count from the end. -/
def memberAt (i : Int) (items : List Slot) : Except Error Slot :=
  let position := if i < 0 then i + items.length else i
  if position < 0 then .error .outOfRange
  else (items[position.toNat]?.map Except.ok).getD (.error .outOfRange)

def turn (given : Given) (t : Turn) : Work Given := do
  match t, given with
  | .property name, .slot slot => property name slot
  | .property _, _ => throw .missingMember
  | .index i, .slot slot => return .slot (← ofExcept (memberAt i (← ofExcept ((← store).members slot))))
  | .index i, .list items => return .slot (← ofExcept (memberAt i items))
  | .index _, .stream _ => throw .wrongKind

def follow (route : Route) : Work Given := do
  match (← get).names.lookup route.start with
  | some slot => route.turns.foldlM turn (.slot slot)
  | none => throw .unknownKey

/-- The thing at the end of a route, where a new list is kept. -/
def arrive (route : Route) : Work Slot := do
  match ← follow route with
  | .slot slot => return slot
  | .list items | .stream items => add (.list items)

end Work

end SwanModel
