import Mathlib.Data.List.Forall2
import SwanModel.Proofs.Perform
import SwanModel.Store.Workspace

/-!
# Terms in a store

`Held` relates a term to the slot where a store holds it, and `Refines` says how a store may change.
What a store holds, each refinement of it holds.
-/

namespace SwanModel

variable {slots : List Slot} {ts : List Term} {id : Nat} {t : Term} {slot : Slot}

/-- Which terms may stand for the tree of an operator. -/
abbrev Bodies := ParseTree → Term → Prop

def Bodies.none : Bodies := fun _ _ => False

def Term.isPlain : Term → Bool
  | .list _ | .node _ _ | .raw _ => false
  | _ => true

mutual

/-- A store holds a term at a slot. -/
inductive Held (body : Bodies) (store : Store) : Term → Slot → Prop
  | plain {t : Term} (plain : t.isPlain = true) : Held body store t (.atom t)
  | list {id : Nat} {slots : List Slot} {items : List Term} (cell : store.cell? id = some (.list slots))
      (members : HeldAll body store items slots) : Held body store (.list items) (.ref id)
  | node {id : Nat} {form : Form} {slots : List Slot} {owner : Owner} {parts : List Term}
      (cell : store.cell? id = some (.node form slots owner))
        (members : HeldAll body store parts slots) :
      Held body store (.node form parts) (.ref id)
  | delayed (tree : ParseTree) : Held body store (.raw tree) (.delayed (.tree tree))
  | computed {tree : ParseTree} {t : Term} {slot : Slot} (stands : body tree t)
    (held : Held body store t slot) : Held body store (.raw tree) slot

inductive HeldAll (body : Bodies) (store : Store) : List Term → List Slot → Prop
  | nil : HeldAll body store [] []
  | cons {t : Term} {slot : Slot} {ts : List Term} {slots : List Slot} (head : Held body store t slot)
      (tail : HeldAll body store ts slots) : HeldAll body store (t :: ts) (slot :: slots)

end

variable {body : Bodies} {store store' store'' : Store}

inductive SlotRefines (body : Bodies) (store : Store) : Slot → Slot → Prop
  | same (slot : Slot) : SlotRefines body store slot slot
  | tree {tree : ParseTree} {t : Term} {slot : Slot} (stands : body tree t)
    (held : Held body store t slot) : SlotRefines body store (.delayed (.tree tree)) slot
  | plan (plan : Blueprint) (slot : Slot) : SlotRefines body store (.delayed (.plan plan)) slot

/-- How a store may change: it only grows, and what is delayed may be computed. -/
structure Refines (body : Bodies) (store store' : Store) : Prop where
  lists : ∀ {id slots}, store.cell? id = some (.list slots) → store'.cell? id = some (.list slots)
  nodes : ∀ {id form slots owner}, store.cell? id = some (.node form slots owner) →
    ∃ slots' owner', store'.cell? id = some (.node form slots' owner') ∧
      List.Forall₂ (SlotRefines body store') slots slots'

theorem slots_same (slots : List Slot) : List.Forall₂ (SlotRefines body store) slots slots :=
  List.forall₂_same.mpr fun slot _ => .same slot

mutual

/-- What a store holds, a refinement of it holds at the slot in its place. -/
theorem Held.refine {t : Term} {slot slot' : Slot} (refines : Refines body store store')
    (held : Held body store t slot) (changed : SlotRefines body store' slot slot') :
    Held body store' t slot' :=
  match held, changed with
  | .plain plain, .same _ => .plain plain
  | .list cell members, .same _ => .list (refines.lists cell) (members.refine refines (slots_same _))
  | .node cell members, .same _ =>
    have ⟨_, _, cell', changed⟩ := refines.nodes cell
    .node cell' (members.refine refines changed)
  | .delayed tree, .same _ => .delayed tree
  | .delayed _, .tree stands held => .computed stands held
  | .computed stands held, changed => .computed stands (held.refine refines changed)

theorem HeldAll.refine {ts : List Term} {slots slots' : List Slot} (refines : Refines body store store')
    (held : HeldAll body store ts slots)
    (changed : List.Forall₂ (SlotRefines body store') slots slots') :
    HeldAll body store' ts slots' :=
  match held, changed with
  | .nil, .nil => .nil
  | .cons head tail, .cons first rest => .cons (head.refine refines first) (tail.refine refines rest)

end

theorem SlotRefines.trans {a b c : Slot} (first : SlotRefines body store' a b)
    (refines : Refines body store' store'') (second : SlotRefines body store'' b c) :
    SlotRefines body store'' a c := by
  cases first with
  | same => exact second
  | tree stands held => exact .tree stands (held.refine refines second)
  | plan plan => exact .plan plan c

theorem slots_trans {as bs cs : List Slot} (first : List.Forall₂ (SlotRefines body store') as bs)
    (refines : Refines body store' store'') (second : List.Forall₂ (SlotRefines body store'') bs cs) :
    List.Forall₂ (SlotRefines body store'') as cs := by
  induction first generalizing cs with
  | nil => cases second; exact .nil
  | cons head _ ih =>
    cases second with
    | cons head' tail' => exact .cons (head.trans refines head') (ih tail')

theorem Refines.refl (store : Store) : Refines body store store where
  lists cell := cell
  nodes cell := ⟨_, _, cell, slots_same _⟩

theorem Refines.trans (first : Refines body store store') (second : Refines body store' store'') :
    Refines body store store'' where
  lists cell := second.lists (first.lists cell)
  nodes cell := by
    obtain ⟨_, _, cell', changed⟩ := first.nodes cell
    obtain ⟨_, _, cell'', changed'⟩ := second.nodes cell'
    exact ⟨_, _, cell'', slots_trans changed second changed'⟩

theorem Held.mono {t : Term} {slot : Slot} (held : Held body store t slot)
    (refines : Refines body store store') : Held body store' t slot := held.refine refines (.same slot)

theorem HeldAll.mono {ts : List Term} {slots : List Slot} (held : HeldAll body store ts slots)
    (refines : Refines body store store') : HeldAll body store' ts slots :=
  held.refine refines (slots_same slots)

theorem HeldAll.append {us : List Term} {others : List Slot} (first : HeldAll body store ts slots)
    (second : HeldAll body store us others) : HeldAll body store (ts ++ us) (slots ++ others) := by
  induction ts generalizing slots with
  | nil => cases first; exact second
  | cons t ts ih =>
    cases first with
    | cons head tail => exact .cons head (ih tail)

theorem HeldAll.getElem? (held : HeldAll body store ts slots) {i : Nat}
    (found : ts[i]? = some t) : ∃ slot, slots[i]? = some slot ∧ Held body store t slot := by
  induction ts generalizing slots i with
  | nil => simp at found
  | cons first ts ih =>
    cases held with
    | cons head tail =>
      cases i with
      | zero =>
        obtain rfl : first = t := by simpa using found
        exact ⟨_, rfl, head⟩
      | succ i => exact ih tail (by simpa using found)

mutual

theorem Held.of_none {t : Term} {slot : Slot} (held : Held .none store t slot) :
    Held body store t slot :=
  match held with
  | .plain plain => .plain plain
  | .list cell members => .list cell members.of_none
  | .node cell members => .node cell members.of_none
  | .delayed tree => .delayed tree
  | .computed stands _ => stands.elim

theorem HeldAll.of_none {ts : List Term} {slots : List Slot} (held : HeldAll .none store ts slots) :
    HeldAll body store ts slots :=
  match held with
  | .nil => .nil
  | .cons head tail => .cons head.of_none tail.of_none

end

/-! ### Growth

Most changes of a store leave the parts of all constructs alone: cells are added and owners change.
`base` is the first cell that this is known of.
-/

/-- From a cell on, a store only grows, but for owners. -/
structure Grows (base : Nat) (store store' : Store) : Prop where
  lists : ∀ {id slots}, base ≤ id → store.cell? id = some (.list slots) →
    store'.cell? id = some (.list slots)
  nodes : ∀ {id form slots owner}, base ≤ id → store.cell? id = some (.node form slots owner) →
    ∃ owner', store'.cell? id = some (.node form slots owner')

namespace Grows

variable {base : Nat}

theorem refl (store : Store) : Grows base store store where
  lists _ cell := cell
  nodes _ cell := ⟨_, cell⟩

theorem trans (first : Grows base store store') (second : Grows base store' store'') :
    Grows base store store'' where
  lists from_base cell := second.lists from_base (first.lists from_base cell)
  nodes from_base cell := by
    obtain ⟨_, cell'⟩ := first.nodes from_base cell
    exact second.nodes from_base cell'

theorem raise {higher : Nat} (grows : Grows base store store') (le : base ≤ higher) :
    Grows higher store store' where
  lists from_base := grows.lists (Nat.le_trans le from_base)
  nodes from_base := grows.nodes (Nat.le_trans le from_base)

theorem refines (grows : Grows 0 store store') : Refines body store store' where
  lists cell := grows.lists (Nat.zero_le _) cell
  nodes cell := by
    obtain ⟨_, cell'⟩ := grows.nodes (Nat.zero_le _) cell
    exact ⟨_, _, cell', slots_same _⟩

end Grows

theorem Store.lt_of_cell? {cell : Cell} (found : store.cell? id = some cell) :
    id < store.cells.size := by
  by_contra outside
  have absent : store.cell? id = Option.none := by simp [Store.cell?, Nat.le_of_not_lt outside]
  simp [absent] at found

theorem Store.cell?_set_self (cell : Cell) (present : id < store.cells.size) :
    (store.set id cell).cell? id = some cell := by
  simp [Store.set, Store.cell?, present]

/-- A change of the slots of a construct is a refinement if it is one of each slot. -/
theorem refines_set {form : Form} {slots' : List Slot} {owner : Owner}
    (found : store.cell? id = some (.node form slots owner))
    (changed : List.Forall₂ (SlotRefines body (store.set id (.node form slots' owner))) slots slots') :
    Refines body store (store.set id (.node form slots' owner)) where
  lists {other} _ present := by
    have different : id ≠ other := by
      rintro rfl
      rw [found] at present
      cases present
    rw [Store.cell?_set_of_ne _ _ different]
    exact present
  nodes {other} _ _ _ present := by
    by_cases same : id = other
    · subst same
      rw [found] at present
      cases present
      exact ⟨slots', owner, Store.cell?_set_self _ (Store.lt_of_cell? found), changed⟩
    · rw [Store.cell?_set_of_ne _ _ same]
      exact ⟨_, _, present, slots_same _⟩

theorem Grows.size_le (grows : Grows 0 store store') : store.cells.size ≤ store'.cells.size := by
  by_contra shrunk
  -- The cell behind the last one of `store'` would be lost.
  have inside : store'.cells.size < store.cells.size := Nat.lt_of_not_le shrunk
  have found : store.cell? store'.cells.size = some store.cells[store'.cells.size] := by
    simp [Store.cell?, inside]
  cases cell : store.cells[store'.cells.size] with
  | list slots =>
    rw [cell] at found
    exact absurd (Store.lt_of_cell? (grows.lists (Nat.zero_le _) found)) (Nat.lt_irrefl _)
  | node form slots owner =>
    rw [cell] at found
    obtain ⟨_, kept⟩ := grows.nodes (Nat.zero_le _) found
    exact absurd (Store.lt_of_cell? kept) (Nat.lt_irrefl _)

theorem grows_add (cell : Cell) : Grows 0 store (store.add cell).2 where
  lists _ found := by
    rw [Store.cell?_add_of_lt _ _ (Store.lt_of_cell? found)]
    exact found
  nodes _ found := by
    rw [Store.cell?_add_of_lt _ _ (Store.lt_of_cell? found)]
    exact ⟨_, found⟩

theorem grows_set {form : Form} {owner : Owner} (owner' : Owner)
    (found : store.cell? id = some (.node form slots owner)) :
    Grows 0 store (store.set id (.node form slots owner')) where
  lists {other} _ _ present := by
    have different : id ≠ other := by
      rintro rfl
      rw [found] at present
      cases present
    rw [Store.cell?_set_of_ne _ _ different]
    exact present
  nodes {other} _ _ _ _ present := by
    by_cases same : id = other
    · subst same
      rw [found] at present
      cases present
      exact ⟨owner', Store.cell?_set_self _ (Store.lt_of_cell? found)⟩
    · rw [Store.cell?_set_of_ne _ _ same]
      exact ⟨_, present⟩

theorem grows_set_below {base : Nat} (below : id < base) (cell : Cell) :
    Grows base store (store.set id cell) where
  lists from_base found := by
    rw [Store.cell?_set_of_ne _ _ (Nat.ne_of_lt (Nat.lt_of_lt_of_le below from_base))]
    exact found
  nodes from_base found := by
    rw [Store.cell?_set_of_ne _ _ (Nat.ne_of_lt (Nat.lt_of_lt_of_le below from_base))]
    exact ⟨_, found⟩

theorem grows_setOwner (id : Nat) (owner : Owner) : Grows 0 store (store.setOwner id owner) := by
  unfold Store.setOwner
  split
  · rename_i found
    exact grows_set owner found
  · exact .refl store

end SwanModel
