import SwanModel.Proofs.Store.Fresh

/-!
# Owners of loaded terms

`Laid` is a term in a row of cells of its own in which every construct owns what its form adopts.
The cells of one part come right before those of the next, and the cell of a construct comes behind
those of its parts.
-/

namespace SwanModel

open Work

variable {reader : Reader} {w w' : Workspace} {store store' store'' : Store} {t : Term}
  {ts : List Term} {slot : Slot} {slots : List Slot} {low middle high id new : Nat} {form : Form}

/-! ### What is adopted -/

def Store.listed (store : Store) (slot : Slot) : List Slot := (store.members slot).toOption.getD []

def Adoption.taken (store : Store) (slots : List Slot) : Adoption → List Slot
  | .argument i => [slots.getD i default]
  | .argumentMembers i | .partMembers i => store.listed (slots.getD i default)

/-- What a construct of a form adopts from its slots. -/
def Form.taken (form : Form) (store : Store) (slots : List Slot) : List Slot :=
  form.adoptions.flatMap (Adoption.taken store slots)

/-- What can be adopted through a slot: what is there, and its members. -/
def Store.tops (store : Store) (slot : Slot) : List Slot := slot :: store.listed slot

theorem Store.listed_list (cell : store.cell? id = some (.list slots)) :
    store.listed (.ref id) = slots := by
  simp [Store.listed, Store.members, cell, Except.toOption]

theorem Store.listed_node {owner : Owner} (cell : store.cell? id = some (.node form slots owner)) :
    store.listed (.ref id) = [] := by
  simp [Store.listed, Store.members, cell, Except.toOption]

theorem Store.ref_not_listed (store : Store) (t : Term) (id : Nat) :
    Slot.ref id ∉ store.listed (.atom t) := by
  cases t <;> simp [Store.listed, Store.members, Term.members, Except.map, Except.toOption]

theorem Form.taken_tops (taken : .ref id ∈ form.taken store slots) :
    ∃ slot ∈ slots, .ref id ∈ store.tops slot := by
  obtain ⟨adoption, -, taken⟩ := List.mem_flatMap.mp taken
  -- A slot that is missing is filled with nothing, and then nothing is taken.
  have present : ∀ i, .ref id ∈ store.tops (slots.getD i default) →
      ∃ slot ∈ slots, .ref id ∈ store.tops slot := by
    intro i top
    rw [List.getD_eq_getElem?_getD] at top
    cases found : slots[i]? with
    | some slot =>
      rw [found] at top
      exact ⟨slot, List.mem_of_getElem? found, top⟩
    | none =>
      rw [found] at top
      rcases List.mem_cons.mp top with absurd | member
      · cases absurd
      · exact absurd member (store.ref_not_listed .absent id)
  cases adoption with
  | argument i => exact present i (List.mem_cons.mpr (.inl (List.mem_singleton.mp taken)))
  | argumentMembers i => exact present i (List.mem_cons_of_mem _ taken)
  | partMembers i => exact present i (List.mem_cons_of_mem _ taken)

/-! ### Rows of cells -/

mutual

/-- A term lies in the cells from `low` on and below `high`, and its constructs own what they
adopt. -/
inductive Laid (store : Store) : Term → Slot → Nat → Nat → Prop
  | plain {t : Term} (plain : t.isPlain = true) (low : Nat) : Laid store t (.atom t) low low
  | delayed (tree : ParseTree) (low : Nat) : Laid store (.raw tree) (.delayed (.tree tree)) low low
  | list {items : List Term} {slots : List Slot} {low high : Nat}
    (members : LaidAll store items slots low high) (cell : store.cell? high = some (.list slots)) :
    Laid store (.list items) (.ref high) low (high + 1)
  | node {form : Form} {parts : List Term} {slots : List Slot} {owner : Owner} {low high : Nat}
      (members : LaidAll store parts slots low high) (cell : store.cell? high =
        some (.node form slots owner))
      (owned : ∀ id, .ref id ∈ form.taken store slots → store.owner id = .construct high) :
      Laid store (.node form parts) (.ref high) low (high + 1)

inductive LaidAll (store : Store) : List Term → List Slot → Nat → Nat → Prop
  | nil (low : Nat) : LaidAll store [] [] low low
  | cons {t : Term} {slot : Slot} {ts : List Term} {slots : List Slot} {low middle high : Nat}
      (head : Laid store t slot low middle) (tail : LaidAll store ts slots middle high) :
      LaidAll store (t :: ts) (slot :: slots) low high

end

mutual

theorem Laid.low_le {t : Term} {slot : Slot} {low high : Nat} (laid : Laid store t slot low high) :
    low ≤ high := by
  cases laid with
  | plain => exact Nat.le_refl _
  | delayed => exact Nat.le_refl _
  | list members => exact Nat.le_succ_of_le members.low_le
  | node members => exact Nat.le_succ_of_le members.low_le

theorem LaidAll.low_le {ts : List Term} {slots : List Slot} {low high : Nat}
    (laid : LaidAll store ts slots low high) : low ≤ high := by
  cases laid with
  | nil => exact Nat.le_refl _
  | cons head tail => exact Nat.le_trans head.low_le tail.low_le

end

mutual

theorem Laid.held {t : Term} {slot : Slot} {low high : Nat} (laid : Laid store t slot low high) :
    Held .none store t slot := by
  cases laid with
  | plain plain => exact .plain plain
  | delayed tree => exact .delayed tree
  | list members cell => exact .list cell members.held
  | node members cell => exact .node cell members.held

theorem LaidAll.held {ts : List Term} {slots : List Slot} {low high : Nat}
    (laid : LaidAll store ts slots low high) : HeldAll .none store ts slots := by
  cases laid with
  | nil => exact .nil
  | cons head tail => exact .cons head.held tail.held

end

theorem Laid.ref_within (laid : Laid store t (.ref id) low high) : low ≤ id ∧ id < high := by
  cases laid with
  | list members => exact ⟨members.low_le, Nat.lt_succ_self _⟩
  | node members => exact ⟨members.low_le, Nat.lt_succ_self _⟩

theorem LaidAll.mem (laid : LaidAll store ts slots low high) (inside : slot ∈ slots) :
    ∃ t ∈ ts, ∃ start stop, low ≤ start ∧ stop ≤ high ∧ Laid store t slot start stop := by
  induction ts generalizing slots low with
  | nil =>
    cases laid
    cases inside
  | cons t ts ih =>
    cases laid with
    | cons head tail =>
      rcases List.mem_cons.mp inside with rfl | inside
      · exact ⟨t, List.mem_cons_self, _, _, Nat.le_refl _, tail.low_le, head⟩
      · obtain ⟨u, member, start, stop, above, below, laid⟩ := ih tail inside
        exact ⟨u, List.mem_cons_of_mem t member, start, stop, Nat.le_trans head.low_le above, below,
          laid⟩

theorem Laid.tops_within (laid : Laid store t slot low high) (top : .ref id ∈ store.tops slot) :
    low ≤ id ∧ id < high := by
  cases laid with
  | plain plain low =>
    rcases List.mem_cons.mp top with absurd | member
    · cases absurd
    · exact absurd member (store.ref_not_listed t id)
  | delayed tree low => simp [Store.tops, Store.listed, Store.members, Except.toOption] at top
  | list members cell =>
    rw [Store.tops, Store.listed_list cell] at top
    rcases List.mem_cons.mp top with same | member
    · cases same
      exact ⟨members.low_le, Nat.lt_succ_self _⟩
    · obtain ⟨_, -, _, _, above, below, laid⟩ := members.mem member
      have within := laid.ref_within
      omega
  | node members cell =>
    rw [Store.tops, Store.listed_node cell, List.mem_singleton] at top
    cases top
    exact ⟨members.low_le, Nat.lt_succ_self _⟩

theorem LaidAll.tops_within (laid : LaidAll store ts slots low high) (inside : slot ∈ slots)
    (top : .ref id ∈ store.tops slot) : low ≤ id ∧ id < high := by
  obtain ⟨_, -, _, _, above, below, laid⟩ := laid.mem inside
  have within := laid.tops_within top
  omega

theorem LaidAll.taken_within (laid : LaidAll store ts slots low high)
    (taken : .ref id ∈ form.taken store slots) : low ≤ id ∧ id < high := by
  obtain ⟨slot, inside, top⟩ := Form.taken_tops taken
  exact laid.tops_within inside top

/-! ### Changes that keep a row -/

def Reowned (store store' : Store) (id : Nat) : Prop :=
  ∃ form slots owner owner', store.cell? id = some (.node form slots owner) ∧
    store'.cell? id = some (.node form slots owner')

/-- A cell stays, or it is a construct that may be adopted and gets another owner. -/
def Stays (store store' : Store) (tops : List Slot) (id : Nat) : Prop :=
  store'.cell? id = store.cell? id ∨ .ref id ∈ tops ∧ Reowned store store' id

theorem Stays.listed_eq {tops : List Slot} (stays : Stays store store' tops id) :
    store'.listed (.ref id) = store.listed (.ref id) := by
  rcases stays with same | ⟨-, _, _, _, _, before, after⟩
  · simp [Store.listed, Store.members, same]
  · rw [Store.listed_node before, Store.listed_node after]

theorem LaidAll.taken_eq (laid : LaidAll store ts slots low high)
    (kept : ∀ id, low ≤ id → id < high → ∃ tops, Stays store store' tops id) :
    form.taken store' slots = form.taken store slots := by
  have each : ∀ slot ∈ slots, store'.listed slot = store.listed slot := by
    intro slot inside
    cases slot with
    | ref id =>
      have within : low ≤ id ∧ id < high := laid.tops_within inside List.mem_cons_self
      obtain ⟨_, stays⟩ := kept id within.1 within.2
      exact stays.listed_eq
    | _ => rfl
  have filled : ∀ i, store'.listed (slots.getD i default) = store.listed (slots.getD i default) := by
    intro i
    rw [List.getD_eq_getElem?_getD]
    cases found : slots[i]? with
    | some slot => exact each slot (List.mem_of_getElem? found)
    | none => rfl
  have same : Adoption.taken store' slots = Adoption.taken store slots := by
    funext adoption
    cases adoption with
    | argument i => rfl
    | argumentMembers i => exact filled i
    | partMembers i => exact filled i
  rw [Form.taken, Form.taken, same]

mutual

/-- A term stays in its row when at most its own construct, or the constructs in its list, get
another owner. -/
theorem Laid.keep {t : Term} {slot : Slot} {low high : Nat} (laid : Laid store t slot low high)
    (kept : ∀ id, low ≤ id → id < high → Stays store store' (store.tops slot) id) :
    Laid store' t slot low high := by
  cases laid with
  | plain plain => exact .plain plain _
  | delayed tree => exact .delayed tree _
  | @list items slots _ last members cell =>
    have below := members.low_le
    rw [Store.tops, Store.listed_list cell] at kept
    refine .list (members.keep fun id above inside => ?_) ?_
    · refine (kept id above (Nat.lt_succ_of_lt inside)).imp_right fun moved => ⟨?_, moved.2⟩
      rcases List.mem_cons.mp moved.1 with same | member
      · cases same
        exact absurd inside (Nat.lt_irrefl _)
      · exact List.mem_flatMap.mpr ⟨_, member, List.mem_cons_self⟩
    · rcases kept last below (Nat.lt_succ_self _) with same | ⟨-, _, _, _, _, before, -⟩
      · exact same.trans cell
      · cases cell.symm.trans before
  | @node form parts slots owner _ last members cell owned =>
    have below := members.low_le
    rw [Store.tops, Store.listed_node cell] at kept
    -- None of the parts can be adopted from outside.
    have inner : ∀ id, low ≤ id → id < last → store'.cell? id = store.cell? id := by
      intro id above inside
      refine (kept id above (Nat.lt_succ_of_lt inside)).resolve_right fun moved => ?_
      cases List.mem_singleton.mp moved.1
      exact absurd inside (Nat.lt_irrefl _)
    have last' : ∃ owner', store'.cell? last = some (.node form slots owner') := by
      rcases kept last below (Nat.lt_succ_self _) with same | ⟨-, _, _, _, _, before, after⟩
      · exact ⟨owner, same.trans cell⟩
      · cases cell.symm.trans before
        exact ⟨_, after⟩
    obtain ⟨owner', cell'⟩ := last'
    refine .node (members.keep fun id above inside =>
      .inl (inner id above inside)) cell' fun id taken => ?_
    rw [members.taken_eq fun id above inside => ⟨[], .inl (inner id above inside)⟩] at taken
    have within := members.taken_within taken
    rw [Store.owner, inner id within.1 within.2]
    exact owned id taken

theorem LaidAll.keep {ts : List Term} {slots : List Slot} {low high : Nat}
    (laid : LaidAll store ts slots low high)
    (kept : ∀ id, low ≤ id → id < high → Stays store store' (slots.flatMap store.tops) id) :
    LaidAll store' ts slots low high := by
  cases laid with
  | nil => exact .nil _
  | @cons t slot ts slots _ middle _ head tail =>
    rw [List.flatMap_cons] at kept
    refine .cons (head.keep fun id above inside => ?_) (tail.keep fun id above inside => ?_)
    · refine (kept id above (Nat.lt_of_lt_of_le inside tail.low_le)).imp_right fun moved => ⟨?_, moved.2⟩
      refine (List.mem_append.mp moved.1).resolve_right fun other => ?_
      obtain ⟨_, member, top⟩ := List.mem_flatMap.mp other
      exact absurd (tail.tops_within member top).1 (Nat.not_le.mpr inside)
    · refine (kept id (Nat.le_trans head.low_le above) inside).imp_right fun moved => ⟨?_, moved.2⟩
      refine (List.mem_append.mp moved.1).resolve_left fun other => ?_
      exact absurd (head.tops_within other).2 (Nat.not_lt.mpr above)

end

/-! ### Adoption -/

/-- A construct becomes the owner of the constructs in some slots, and nothing else changes. -/
structure Adopts (new : Nat) (taken : List Slot) (store store' : Store) : Prop where
  others : ∀ id, .ref id ∉ taken → store'.cell? id = store.cell? id
  owned : ∀ id, .ref id ∈ taken → ∃ form slots owner, store.cell? id = some (.node form slots owner) ∧
    store'.cell? id = some (.node form slots (.construct new))
  size : store'.cells.size = store.cells.size

theorem Adopts.nothing {taken : List Slot} (plain : ∀ id, .ref id ∉ taken) (store : Store) :
    Adopts new taken store store :=
  ⟨fun _ _ => rfl, fun id member => absurd member (plain id), rfl⟩

theorem Adopts.append {first second : List Slot} (one : Adopts new first store store')
    (two : Adopts new second store' store'') : Adopts new (first ++ second) store store'' where
  others id apart := by
    rw [List.mem_append, not_or] at apart
    rw [two.others id apart.2, one.others id apart.1]
  owned id member := by
    by_cases late : .ref id ∈ second
    · obtain ⟨form, slots, owner, before, after⟩ := two.owned id late
      by_cases early : .ref id ∈ first
      · obtain ⟨form', slots', owner', start, between⟩ := one.owned id early
        cases between.symm.trans before
        exact ⟨_, _, _, start, after⟩
      · exact ⟨form, slots, owner, (one.others id early).symm.trans before, after⟩
    · obtain ⟨form, slots, owner, before, after⟩ :=
        one.owned id ((List.mem_append.mp member).resolve_right late)
      exact ⟨form, slots, owner, before, (two.others id late).trans after⟩
  size := two.size.trans one.size

theorem Adopts.stays {taken : List Slot} (adopts : Adopts new taken store store') (id : Nat) :
    Stays store store' taken id := by
  by_cases member : .ref id ∈ taken
  · obtain ⟨form, slots, owner, before, after⟩ := adopts.owned id member
    exact .inr ⟨member, form, slots, owner, _, before, after⟩
  · exact .inl (adopts.others id member)

theorem Adopts.listed_eq {taken : List Slot} (adopts : Adopts new taken store store') (slot : Slot) :
    store'.listed slot = store.listed slot := by
  cases slot with
  | ref id => exact (adopts.stays id).listed_eq
  | _ => rfl

theorem adopt_adopts (ran : perform (adopt (.ref new) slot) reader w = (.ok (), w')) :
    Adopts new [slot] w.store w'.store := by
  unfold adopt at ran
  split at ran
  · rename_i id owner same
    cases same
    obtain ⟨_, _, looked, ran⟩ := bind_ok ran
    cases looked
    split at ran
    · rename_i form slots owner found
      cases ran
      refine ⟨fun other apart => ?_, fun other member => ?_, by simp [Store.set]⟩
      · exact Store.cell?_set_of_ne _ _ fun same => apart (by simp [same])
      · cases List.mem_singleton.mp member
        exact ⟨form, slots, owner, found, Store.cell?_set_self _ (Store.lt_of_cell? found)⟩
    · cases ran
  · split at ran
    · cases ran
      exact .nothing (by simp) _
    · cases ran
  · cases ran

theorem adoptAll_adopts (ran : perform (slots.forM (adopt (.ref new))) reader w = (.ok (), w')) :
    Adopts new slots w.store w'.store := by
  induction slots generalizing w with
  | nil =>
    cases ran
    exact .nothing (by simp) _
  | cons slot slots ih =>
    obtain ⟨_, w₁, first, rest⟩ := bind_ok ran
    exact (adopt_adopts first).append (ih rest)

theorem adoptMembers_adopts
    (ran : perform (do (← Work.ofExcept ((← Work.store).members slot)).forM (adopt (.ref new)))
      reader w = (.ok (), w')) :
    Adopts new (w.store.listed slot) w.store w'.store := by
  obtain ⟨_, _, looked, ran⟩ := bind_ok ran
  cases looked
  obtain ⟨members, _, found, ran⟩ := bind_ok ran
  rw [Store.listed]
  cases listed : w.store.members slot with
  | error e =>
    rw [listed] at found
    cases found
  | ok slots =>
    rw [listed] at found
    cases found
    exact adoptAll_adopts ran

theorem carryOut_adopts {adoption : Adoption}
    (ran : perform (carryOut (.ref new) slots slots adoption) reader w = (.ok (), w')) :
    Adopts new (adoption.taken w.store slots) w.store w'.store := by
  cases adoption with
  | argument i => exact adopt_adopts ran
  | argumentMembers i => exact adoptMembers_adopts ran
  | partMembers i => exact adoptMembers_adopts ran

theorem carryOutAll_adopts {adoptions : List Adoption}
    (ran : perform (adoptions.forM (carryOut (.ref new) slots slots)) reader w = (.ok (), w')) :
    Adopts new (adoptions.flatMap (Adoption.taken w.store slots)) w.store w'.store := by
  induction adoptions generalizing w with
  | nil =>
    cases ran
    exact .nothing (by simp) _
  | cons adoption adoptions ih =>
    obtain ⟨_, w₁, first, rest⟩ := bind_ok ran
    have adopted := carryOut_adopts first
    have same : Adoption.taken w₁.store slots = Adoption.taken w.store slots := by
      funext adoption
      cases adoption with
      | argument i => rfl
      | argumentMembers i => exact adopted.listed_eq _
      | partMembers i => exact adopted.listed_eq _
    have others := ih rest
    rw [same] at others
    exact adopted.append others

/-! ### Loading -/

theorem addNode_laid {parts : List Term} (laid : LaidAll w.store parts slots low w.store.cells.size)
    (ran : perform (addNode form slots slots) reader w = (.ok slot, w')) :
    Laid w'.store (.node form parts) slot low w'.store.cells.size := by
  obtain ⟨_, w₁, added, ran⟩ := bind_ok ran
  rw [perform_add] at added
  cases added
  obtain ⟨_, w₂, adopted, ran⟩ := bind_ok ran
  cases ran
  let cell := Cell.node form slots (if form.startsUnowned then Owner.none else .unset)
  have size : (w.store.add cell).2.cells.size = w.store.cells.size + 1 := by simp [Store.add]
  have members : LaidAll (w.store.add cell).2 parts slots low w.store.cells.size :=
    laid.keep fun id _ inside => .inl (Store.cell?_add_of_lt _ _ inside)
  have adopts := carryOutAll_adopts adopted
  change Adopts w.store.cells.size (form.taken (w.store.add cell).2 slots) (w.store.add cell).2
    w'.store at adopts
  -- The new construct comes behind its parts, so that it is not among what it adopts.
  have apart : .ref w.store.cells.size ∉ form.taken (w.store.add cell).2 slots :=
    fun taken => absurd (members.taken_within taken).2 (Nat.lt_irrefl _)
  have stays :
      ∀ id, Stays (w.store.add cell).2 w'.store (slots.flatMap (w.store.add cell).2.tops) id := by
    refine fun id => (adopts.stays id).imp_right fun moved => ⟨?_, moved.2⟩
    obtain ⟨slot, inside, top⟩ := Form.taken_tops moved.1
    exact List.mem_flatMap.mpr ⟨slot, inside, top⟩
  rw [adopts.size, size]
  refine .node (members.keep fun id _ _ => stays id)
    ((adopts.others _ apart).trans (Store.cell?_add _ _)) ?_
  intro id taken
  rw [members.taken_eq fun id _ _ => ⟨_, stays id⟩] at taken
  obtain ⟨_, _, _, -, after⟩ := adopts.owned id taken
  rw [Store.owner, after]

mutual

/-- A term is loaded into a row of new cells, in which every construct owns what it adopts. -/
theorem load_laid (t : Term) (w : Workspace) {slot : Slot} {w' : Workspace}
    (ran : perform (load t) reader w = (.ok slot, w')) :
    Laid w'.store t slot w.store.cells.size w'.store.cells.size := by
  cases t with
  | list items =>
    obtain ⟨slots, w₁, loaded, ran⟩ := bind_ok ran
    have laid := loadAll_laid items w loaded
    rw [perform_add] at ran
    cases ran
    have size : (w₁.store.add (.list slots)).2.cells.size = w₁.store.cells.size + 1 := by
      simp [Store.add]
    rw [size]
    exact .list (laid.keep fun id _ inside =>
      .inl (Store.cell?_add_of_lt _ _ inside)) (Store.cell?_add _ _)
  | node form parts =>
    obtain ⟨slots, w₁, loaded, ran⟩ := bind_ok ran
    exact addNode_laid (loadAll_laid parts w loaded) ran
  | raw tree =>
    cases ran
    exact .delayed tree _
  | _ =>
    cases ran
    exact .plain rfl _

theorem loadAll_laid (ts : List Term) (w : Workspace) {slots : List Slot} {w' : Workspace}
    (ran : perform (loadAll ts) reader w = (.ok slots, w')) :
    LaidAll w'.store ts slots w.store.cells.size w'.store.cells.size := by
  cases ts with
  | nil =>
    cases ran
    exact .nil _
  | cons t rest =>
    obtain ⟨slot, w₁, first, ran⟩ := bind_ok ran
    obtain ⟨slots, w₂, others, ran⟩ := bind_ok ran
    cases ran
    have head := load_laid t w first
    have fresh := (loadAll_builds rest reader w₁ (Nat.le_refl _) w₁.store.closedFrom_size).1
    rw [others] at fresh
    exact .cons (head.keep fun id _ inside => .inl (fresh.old id inside)) (loadAll_laid rest w₁ others)

end

end SwanModel
