import SwanModel.Proofs.Store.Bodies

/-!
# New cells

Loading a term works on new cells only, and every older cell stays as it is, with its owner.
-/

namespace SwanModel

open Work

variable {α β : Type} {base : Nat} {reader : Reader} {w w' w'' : Workspace}

def Cell.slots : Cell → List Slot
  | .list slots | .node _ slots _ => slots

/-- A slot that leads only to cells from `low` on and below `high`, with nothing that is still to be
built. -/
def Slot.Within (low high : Nat) : Slot → Prop
  | .ref id => low ≤ id ∧ id < high
  | .delayed (.plan _) => False
  | _ => True

theorem Slot.Within.widen {low high low' high' : Nat} {slot : Slot} (within : slot.Within low high)
    (lower : low' ≤ low) (higher : high ≤ high') : slot.Within low' high' := by
  cases slot with
  | ref id => exact ⟨Nat.le_trans lower within.1, Nat.lt_of_lt_of_le within.2 higher⟩
  | atom => trivial
  | delayed d =>
    cases d with
    | tree => trivial
    | plan => exact within

/-- The cells from `base` on refer to each other only. -/
def Store.ClosedFrom (base : Nat) (store : Store) : Prop :=
  ∀ ⦃id cell⦄, base ≤ id → store.cell? id = some cell →
    ∀ slot ∈ cell.slots, slot.Within base store.cells.size

theorem Store.closedFrom_size (store : Store) : store.ClosedFrom store.cells.size := by
  intro id cell outside found
  exact absurd (Store.lt_of_cell? found) (Nat.not_lt.mpr outside)

/-- A workspace changes from the cell `base` on. -/
structure Fresh (base : Nat) (w w' : Workspace) : Prop where
  old : ∀ id < base, w'.store.cell? id = w.store.cell? id
  larger : w.store.cells.size ≤ w'.store.cells.size
  closed : w.store.ClosedFrom base → w'.store.ClosedFrom base
  reading : w'.reading = w.reading

theorem Fresh.refl (base : Nat) (w : Workspace) : Fresh base w w :=
  ⟨fun _ _ => rfl, Nat.le_refl _, id, rfl⟩

theorem Fresh.trans (first : Fresh base w w') (second : Fresh base w' w'') : Fresh base w w'' where
  old id below := (second.old id below).trans (first.old id below)
  larger := Nat.le_trans first.larger second.larger
  closed closed := second.closed (first.closed closed)
  reading := second.reading.trans first.reading

theorem fresh_add {cell : Cell} (low : base ≤ w.store.cells.size)
    (within : ∀ slot ∈ cell.slots, slot.Within base w.store.cells.size) :
    Fresh base w { w with store := (w.store.add cell).2 } where
  old id below := Store.cell?_add_of_lt _ _ (Nat.lt_of_lt_of_le below low)
  larger := by simp [Store.add]
  closed closed := by
    intro id other above found slot member
    have size : (w.store.add cell).2.cells.size = w.store.cells.size + 1 := by simp [Store.add]
    rw [size]
    refine Slot.Within.widen ?_ (Nat.le_refl _) (Nat.le_succ _)
    by_cases inside : id < w.store.cells.size
    · rw [Store.cell?_add_of_lt _ _ inside] at found
      exact closed above found slot member
    · have last : id = w.store.cells.size := by
        have below := Store.lt_of_cell? found
        rw [size] at below
        omega
      subst last
      obtain rfl := Option.some.inj ((Store.cell?_add w.store cell).symm.trans found)
      exact within slot member
  reading := rfl

theorem fresh_set {id : Nat} {form : Form} {slots : List Slot} {owner : Owner} (owner' : Owner)
    (above : base ≤ id) (found : w.store.cell? id = some (.node form slots owner)) :
    Fresh base w { w with store := w.store.set id (.node form slots owner') } where
  old other below := Store.cell?_set_of_ne _ _ (by omega)
  larger := by simp [Store.set]
  closed closed := by
    intro other cell from_base present slot member
    have size : (w.store.set id (.node form slots owner')).cells.size = w.store.cells.size := by
      simp [Store.set]
    rw [size]
    by_cases same : id = other
    · subst same
      rw [Store.cell?_set_self _ (Store.lt_of_cell? found)] at present
      obtain rfl := Option.some.inj present
      exact closed above found slot member
    · rw [Store.cell?_set_of_ne _ _ same] at present
      exact closed from_base present slot member
  reading := rfl

/-! ### Computations on new cells -/

/-- A computation that works on the cells from `base` on, and what holds of its result if it
succeeds. -/
def Builds (base : Nat) (x : Work α) (reader : Reader) (w : Workspace)
    (post : α → Workspace → Prop) : Prop :=
  Fresh base w (perform x reader w).2 ∧ ∀ a, (perform x reader w).1 = .ok a →
    post a (perform x reader w).2

namespace Builds

variable {x : Work α} {post : α → Workspace → Prop}

theorem pure {a : α} (holds : post a w) : Builds base (Pure.pure a) reader w post := by
  refine ⟨.refl base w, fun b given => ?_⟩
  cases given
  exact holds

theorem fail (e : Error) : Builds base (throw e) reader w post := by
  refine ⟨.refl base w, fun b given => ?_⟩
  cases given

theorem bind {f : α → Work β} {post' : β → Workspace → Prop} (first : Builds base x reader w post)
    (rest : ∀ a w', Fresh base w w' → post a w' → Builds base (f a) reader w' post') :
    Builds base (x >>= f) reader w post' := by
  obtain ⟨fresh, given⟩ := first
  rw [Builds, perform_bind]
  rcases ran : perform x reader w with ⟨e | a, w'⟩
  · rw [ran] at fresh
    refine ⟨fresh, fun b given => ?_⟩
    cases given
  · rw [ran] at fresh given
    obtain ⟨fresh', given'⟩ := rest a w' fresh (given a rfl)
    exact ⟨fresh.trans fresh', given'⟩

theorem look {f : Store → Work α} (rest : Builds base (f w.store) reader w post) :
    Builds base (Work.store >>= f) reader w post := by
  rwa [Builds, perform_bind_ok perform_store]

theorem forM {f : α → Work PUnit} {xs : List α}
    (each : ∀ a ∈ xs, ∀ w', Fresh base w w' → Builds base (f a) reader w' fun _ _ => True) :
    Builds base (xs.forM f) reader w fun _ _ => True := by
  induction xs generalizing w with
  | nil => exact .pure trivial
  | cons a rest ih =>
    refine bind (each a List.mem_cons_self w (.refl base w)) fun _ w' fresh _ =>
      ih fun b member w'' fresh' => ?_
    exact each b (List.mem_cons_of_mem a member) w'' (fresh.trans fresh')

end Builds

theorem adopt_builds (owner : Slot) {slot : Slot} (within : slot.Within base w.store.cells.size) :
    Builds base (adopt owner slot) reader w fun _ _ => True := by
  unfold adopt
  split
  · refine .look ?_
    split
    · rename_i found
      exact ⟨fresh_set _ within.1 found, fun _ _ => trivial⟩
    · exact .fail _
  · split
    · exact .pure trivial
    · exact .fail _
  · exact .fail _

theorem members_within {slot : Slot} {members : List Slot} (closed : w.store.ClosedFrom base)
    (within : slot.Within base w.store.cells.size) (found : w.store.members slot = .ok members) :
    ∀ member ∈ members, member.Within base w.store.cells.size := by
  cases slot with
  | ref id =>
    unfold Store.members at found
    dsimp only at found
    split at found
    · rename_i cell
      cases found
      exact closed within.1 cell
    · cases found
  | atom t =>
    change t.members.map (·.map .atom) = .ok members at found
    cases parts : t.members with
    | error e =>
      rw [parts] at found
      cases found
    | ok ts =>
      rw [parts] at found
      cases found
      intro member inside
      obtain ⟨_, -, rfl⟩ := List.mem_map.mp inside
      trivial
  | delayed d => cases found

theorem adoptMembers_builds (owner : Slot) {slot : Slot} (closed : w.store.ClosedFrom base)
    (within : slot.Within base w.store.cells.size) :
    Builds base (do (← Work.ofExcept ((← Work.store).members slot)).forM (adopt owner)) reader w
      fun _ _ => True := by
  refine .look ?_
  cases found : w.store.members slot with
  | error e => exact .fail e
  | ok members =>
    refine Builds.forM fun member inside w' fresh => adopt_builds owner ?_
    exact (members_within closed within found member inside).widen (Nat.le_refl _) fresh.larger

theorem getD_within {low high : Nat} {slots : List Slot}
    (within : ∀ slot ∈ slots, slot.Within low high) (i : Nat) :
    (slots.getD i default).Within low high := by
  rw [List.getD_eq_getElem?_getD]
  cases found : slots[i]? with
  | none => trivial
  | some slot => exact within slot (List.mem_of_getElem? found)

theorem carryOut_builds (owner : Slot) {slots : List Slot} (closed : w.store.ClosedFrom base)
    (within : ∀ slot ∈ slots, slot.Within base w.store.cells.size) (adoption : Adoption) :
    Builds base (carryOut owner slots slots adoption) reader w fun _ _ => True := by
  cases adoption with
  | argument i => exact adopt_builds owner (getD_within within i)
  | argumentMembers i => exact adoptMembers_builds owner closed (getD_within within i)
  | partMembers i => exact adoptMembers_builds owner closed (getD_within within i)

theorem add_builds {cell : Cell} (low : base ≤ w.store.cells.size)
    (within : ∀ slot ∈ cell.slots, slot.Within base w.store.cells.size) :
    Builds base (add cell) reader w fun slot w' => slot.Within base w'.store.cells.size := by
  refine ⟨fresh_add low within, fun slot given => ?_⟩
  cases given
  exact ⟨low, by simp [Store.add]⟩

theorem addNode_builds (form : Form) {slots : List Slot} (low : base ≤ w.store.cells.size)
    (closed : w.store.ClosedFrom base) (within : ∀ slot ∈ slots, slot.Within base w.store.cells.size) :
    Builds base (addNode form slots slots) reader w fun slot w' =>
      slot.Within base w'.store.cells.size := by
  have added : Builds base (add
      (.node form slots (if form.startsUnowned then Owner.none else .unset))) reader w _ :=
    add_builds low within
  refine added.bind fun new w₁ first isNew => ?_
  have adopted : Builds base (form.adoptions.forM (carryOut new slots slots)) reader w₁ fun _ _ =>
      True := by
    refine Builds.forM fun adoption _ w₂ second =>
      carryOut_builds new ((first.trans second).closed closed) ?_ adoption
    exact fun slot member => (within slot member).widen (Nat.le_refl _) (first.trans second).larger
  exact adopted.bind fun _ w₂ second _ => .pure (isNew.widen (Nat.le_refl _) second.larger)

mutual

theorem load_builds (t : Term) (reader : Reader) (w : Workspace) (low : base ≤ w.store.cells.size)
    (closed : w.store.ClosedFrom base) :
    Builds base (load t) reader w fun slot w' => slot.Within base w'.store.cells.size := by
  cases t with
  | list items =>
    refine (loadAll_builds items reader w low closed).bind fun slots w₁ fresh within => ?_
    exact add_builds (Nat.le_trans low fresh.larger) within
  | node form parts =>
    refine (loadAll_builds parts reader w low closed).bind fun slots w₁ fresh within => ?_
    exact addNode_builds form (Nat.le_trans low fresh.larger) (fresh.closed closed) within
  | _ => exact .pure trivial

theorem loadAll_builds (ts : List Term) (reader : Reader) (w : Workspace)
    (low : base ≤ w.store.cells.size) (closed : w.store.ClosedFrom base) :
    Builds base (loadAll ts) reader w fun slots w' => ∀ slot ∈ slots,
      slot.Within base w'.store.cells.size := by
  cases ts with
  | nil => exact .pure fun _ member => by cases member
  | cons t rest =>
    refine (load_builds t reader w low closed).bind fun slot w₁ first within => ?_
    refine (loadAll_builds rest reader w₁ (Nat.le_trans low first.larger) (first.closed closed)).bind ?_
    intro slots w₂ second others
    refine .pure fun other member => ?_
    rcases List.mem_cons.mp member with rfl | member
    · exact within.widen (Nat.le_refl _) second.larger
    · exact others other member

end

/-- Loading leaves all cells that are there as they are. -/
theorem load_fresh (t : Term) (reader : Reader) (w : Workspace) :
    Fresh w.store.cells.size w (perform (load t) reader w).2 :=
  (load_builds t reader w (Nat.le_refl _) w.store.closedFrom_size).1

end SwanModel
