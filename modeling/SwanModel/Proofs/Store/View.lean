import Mathlib.Data.List.Perm.Subperm
import SwanModel.Proofs.Store.Bodies

/-!
# Looking at what is held

A store that holds a term shows it. A cell cannot lie inside itself, because it would hold a term
and a part of this term.
-/

namespace SwanModel

mutual

def Term.isSettled : Term → Bool
  | .list items => areSettled items
  | .node _ parts => areSettled parts
  | .raw _ => false
  | _ => true

def Term.areSettled : List Term → Bool
  | [] => true
  | t :: rest => t.isSettled && areSettled rest

end

variable {body : Bodies} {store : Store} {t u : Term} {slot : Slot}

mutual

/-- Where no body is computed, a slot holds one term. -/
theorem Held.unique {t u : Term} {slot : Slot} (first : Held .none store t slot)
    (second : Held .none store u slot) : t = u := by
  cases first with
  | plain plain =>
    cases second with
    | plain => rfl
    | computed stands => exact stands.elim
  | list cell members =>
    cases second with
    | list cell' members' =>
      obtain rfl := Cell.list.inj (Option.some.inj (cell.symm.trans cell'))
      rw [members.unique members']
    | node cell' => simp [cell] at cell'
    | computed stands => exact stands.elim
  | node cell members =>
    cases second with
    | list cell' => simp [cell] at cell'
    | node cell' members' =>
      obtain ⟨rfl, rfl, -⟩ := Cell.node.inj (Option.some.inj (cell.symm.trans cell'))
      rw [members.unique members']
    | computed stands => exact stands.elim
  | delayed tree =>
    cases second with
    | delayed => rfl
    | computed stands => exact stands.elim
  | computed stands => exact stands.elim

theorem HeldAll.unique {ts us : List Term} {slots : List Slot} (first : HeldAll .none store ts slots)
    (second : HeldAll .none store us slots) : ts = us := by
  cases first with
  | nil => cases second; rfl
  | cons head tail =>
    cases second with
    | cons head' tail' => rw [head.unique head', tail.unique tail']

end

mutual

theorem Held.to_none {t : Term} {slot : Slot} (held : Held body store t slot)
    (settled : t.isSettled = true) : Held .none store t slot :=
  match held with
  | .plain plain => .plain plain
  | .list cell members => .list cell (members.to_none settled)
  | .node cell members => .node cell (members.to_none settled)
  | .delayed _ | .computed _ _ => by cases settled

theorem HeldAll.to_none {ts : List Term} {slots : List Slot} (held : HeldAll body store ts slots)
    (settled : Term.areSettled ts = true) : HeldAll .none store ts slots :=
  match held with
  | .nil => .nil
  | .cons head tail => by
    simp only [Term.areSettled, Bool.and_eq_true] at settled
    exact .cons (head.to_none settled.1) (tail.to_none settled.2)

end

/-! ### Views -/

/-- How a part of a construct is shown: a body that is not computed is pending. -/
def Term.shownIn (id : Nat) : Term → Term
  | .raw _ => .pending id
  | t => t

/-- A term is looked at from inside some cells: they differ, hold larger terms, and there are levels
left. -/
structure Inside (store : Store) (levels : Nat) (outer : List Nat) (t : Term) : Prop where
  distinct : outer.Nodup
  larger : ∀ id ∈ outer, ∃ u, Held .none store u (.ref id) ∧ sizeOf t < sizeOf u
  enough : store.cells.size < levels + outer.length

theorem Held.cell {id : Nat} (held : Held .none store t (.ref id)) : id < store.cells.size := by
  cases held with
  | list cell => exact Store.lt_of_cell? cell
  | node cell => exact Store.lt_of_cell? cell
  | computed stands => exact stands.elim

theorem Inside.step {levels : Nat} {outer : List Nat} {id : Nat} (inside : Inside store levels outer t)
    (held : Held .none store t (.ref id)) : ∃ rest, levels = rest + 1 ∧ id ∉ outer := by
  have outside : id ∉ outer := by
    intro member
    obtain ⟨u, held', smaller⟩ := inside.larger id member
    rw [held.unique held'] at smaller
    exact absurd smaller (Nat.lt_irrefl _)
  have few : outer.length ≤ store.cells.size := by
    have subset : outer ⊆ List.range store.cells.size := by
      intro id member
      obtain ⟨u, held, _⟩ := inside.larger id member
      exact List.mem_range.mpr held.cell
    simpa using (List.subperm_of_subset inside.distinct subset).length_le
  have := inside.enough
  exact ⟨levels - 1, by omega, outside⟩

theorem Inside.deeper {rest : Nat} {outer : List Nat} {id : Nat}
    (inside : Inside store (rest + 1) outer t) (held : Held .none store t (.ref id))
    (outside : id ∉ outer) (smaller : sizeOf u < sizeOf t) :
    Inside store rest (id :: outer) u where
  distinct := List.nodup_cons.mpr ⟨outside, inside.distinct⟩
  larger other member := by
    rcases List.mem_cons.mp member with rfl | member
    · exact ⟨t, held, smaller⟩
    · obtain ⟨v, held', larger⟩ := inside.larger other member
      exact ⟨v, held', by omega⟩
  enough := by
    have := inside.enough
    simp only [List.length_cons]
    omega

theorem Term.shownIn_of_settled {id : Nat} (settled : t.isSettled = true) : t.shownIn id = t := by
  cases t with
  | raw => cases settled
  | _ => rfl

theorem sizeOf_item {items : List Term} (member : t ∈ items) : sizeOf t < sizeOf (Term.list items) := by
  have := List.sizeOf_lt_of_mem member
  simp only [Term.list.sizeOf_spec]
  omega

theorem sizeOf_part {form : Form} {parts : List Term} (member : t ∈ parts) :
    sizeOf t < sizeOf (Term.node form parts) := by
  have := List.sizeOf_lt_of_mem member
  simp only [Term.node.sizeOf_spec]
  omega

theorem Held.not_delayed (held : Held .none store t slot) (settled : t.isSettled = true) (d : Delayed) :
    slot ≠ .delayed d := by
  rintro rfl
  cases held with
  | delayed => cases settled
  | computed stands => exact stands.elim

mutual

theorem Held.viewInside {t : Term} {slot : Slot} (held : Held .none store t slot)
    (settled : t.isSettled = true) {levels : Nat} {outer : List Nat}
    (inside : Inside store levels outer t) :
    store.viewInside levels outer slot = .ok t := by
  cases held with
  | plain plain => cases levels <;> rfl
  | list cell members =>
    obtain ⟨rest, rfl, outside⟩ := inside.step (.list cell members)
    simp only [Store.viewInside, List.contains_eq_mem, outside, decide_false, Bool.false_eq_true,
      if_false, cell]
    rw [members.viewAll settled (fun _ _ => rfl) fun item member =>
      inside.deeper (.list cell members) outside (sizeOf_item member)]
    rfl
  | node cell members =>
    obtain ⟨rest, rfl, outside⟩ := inside.step (.node cell members)
    simp only [Store.viewInside, List.contains_eq_mem, outside, decide_false, Bool.false_eq_true,
      if_false, cell]
    rw [members.viewAll settled ?_ fun part member =>
      inside.deeper (.node cell members) outside (sizeOf_part member)]
    · rfl
    · intro slot ready
      cases slot with
      | delayed d => exact absurd rfl (ready d)
      | _ => rfl
  | delayed => cases settled
  | computed stands => exact stands.elim

/-- The members are shown by the view inside, or by what agrees with it but for delayed bodies. -/
theorem HeldAll.viewAll {ts : List Term} {slots : List Slot} (held : HeldAll .none store ts slots)
    (settled : Term.areSettled ts = true) {levels : Nat} {outer : List Nat}
    {f : Slot → Except Error Term}
    (same : ∀ slot, (∀ d, slot ≠ .delayed d) → f slot = store.viewInside levels outer slot)
    (inside : ∀ t ∈ ts, Inside store levels outer t) : slots.mapM f = .ok ts := by
  cases held with
  | nil => rfl
  | cons head tail =>
    simp only [Term.areSettled, Bool.and_eq_true] at settled
    have first := head.viewInside settled.1 (inside _ (by simp))
    have rest := tail.viewAll settled.2 same fun t member => inside t (by simp [member])
    rw [List.mapM_cons, same _ (head.not_delayed settled.1), first]
    simp only [bind, Except.bind, rest]
    rfl

end

theorem Inside.top (store : Store) (t : Term) : Inside store (store.cells.size + 1) [] t where
  distinct := List.nodup_nil
  larger _ member := by cases member
  enough := by simp

/-- The view of a slot is the term that it holds. -/
theorem Held.view (held : Held .none store t slot) (settled : t.isSettled = true) :
    store.view slot = .ok t :=
  held.viewInside settled (.top store t)

section Shown

variable {id levels : Nat} {outer : List Nat} {f : Slot → Except Error Term}
  (same : ∀ slot, (∀ d, slot ≠ .delayed d) → f slot = store.viewInside levels outer slot)
  (pending : ∀ d, f (.delayed d) = .ok (.pending id))
include same pending

theorem Held.viewShown (held : Held .none store t slot)
    (ready : t.isSettled = true ∨ ∃ tree, t = .raw tree) (inside : Inside store levels outer t) :
    f slot = .ok (t.shownIn id) := by
  rcases ready with settled | ⟨tree, rfl⟩
  · rw [same _ (held.not_delayed settled), Term.shownIn_of_settled settled]
    exact held.viewInside settled inside
  · cases held with
    | plain plain => cases plain
    | delayed => exact pending _
    | computed stands => exact stands.elim

theorem HeldAll.viewShown {ts : List Term} {slots : List Slot} (held : HeldAll .none store ts slots)
    (ready : ∀ t ∈ ts, t.isSettled = true ∨ ∃ tree, t = .raw tree)
    (inside : ∀ t ∈ ts, Inside store levels outer t) :
    slots.mapM f = .ok (ts.map (Term.shownIn id)) := by
  induction ts generalizing slots with
  | nil => cases held; rfl
  | cons t ts ih =>
    cases held with
    | cons head tail =>
      have first := head.viewShown same pending (ready t (by simp)) (inside t (by simp))
      have rest := ih tail (fun t member => ready t (by simp [member])) fun t member =>
        inside t (by simp [member])
      rw [List.mapM_cons, first]
      simp only [bind, Except.bind, rest]
      rfl

end Shown

/-- A construct whose bodies may be trees is shown with these bodies pending. -/
theorem Held.view_node {id : Nat} {form : Form} {parts : List Term}
    (held : Held .none store (.node form parts) (.ref id))
    (ready : ∀ part ∈ parts, part.isSettled = true ∨ ∃ tree, part = .raw tree) :
    store.view (.ref id) = .ok (.node form (parts.map (Term.shownIn id))) := by
  cases held with
  | node cell members =>
    have top := Inside.top store (.node form parts)
    simp only [Store.view, Store.viewInside, List.contains_eq_mem, List.not_mem_nil, decide_false,
      Bool.false_eq_true, if_false, cell]
    rw [members.viewShown ?_ (fun _ => rfl) ready fun part member =>
      top.deeper (.node cell members) (by simp) (sizeOf_part member)]
    · rfl
    · intro slot ready
      cases slot with
      | delayed d => exact absurd rfl (ready d)
      | _ => rfl

/-! ### What is shown of a cell -/

theorem mapM_getElem? {f : Slot → Except Error Term} {slots : List Slot} {ts : List Term}
    (made : slots.mapM f = .ok ts) {i : Nat} (found : slots[i]? = some slot) :
    ∃ t, ts[i]? = some t ∧ f slot = .ok t := by
  induction slots generalizing ts i with
  | nil => simp at found
  | cons first rest ih =>
    rw [List.mapM_cons] at made
    rcases head : f first with e | shown
    · rw [head] at made
      cases made
    rcases tail : rest.mapM f with e | others
    · simp [head, tail, bind, Except.bind] at made
    · simp only [head, tail, bind, Except.bind] at made
      cases made
      cases i with
      | zero =>
        cases found
        exact ⟨shown, rfl, head⟩
      | succ i => exact ih tail found

theorem mapped_ok {x : Except Error (List Term)} {g : List Term → Term}
    (made : (do return g (← x)) = Except.ok t) : ∃ ts, x = .ok ts ∧ t = g ts := by
  cases x with
  | error e => cases made
  | ok ts =>
    cases made
    exact ⟨ts, rfl, rfl⟩

theorem viewInside_isAbsent {id levels : Nat} {outer : List Nat}
    (shown : store.viewInside levels outer (.ref id) = .ok t) : t.isAbsent = false := by
  cases levels with
  | zero =>
    cases shown
    rfl
  | succ levels =>
    rw [Store.viewInside] at shown
    split at shown
    · cases shown
      rfl
    · split at shown
      · obtain ⟨_, -, rfl⟩ := mapped_ok shown
        rfl
      · obtain ⟨_, -, rfl⟩ := mapped_ok shown
        rfl
      · cases shown

end SwanModel
