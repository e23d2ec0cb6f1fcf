import SwanModel.Proofs.Store.Ownership

/-!
# Owned parts

Loading goes like a machine with a stack. Whatever stands on the stack has no owner yet and is in no
part of a construct, so that a new construct takes it from nobody.
-/

namespace SwanModel

open Work

variable {reader : Reader} {w w' : Workspace} {store store' : Store} {t : Term} {slot : Slot}
  {slots stack : List Slot} {low new id a c i : Nat} {form : Form} {owner : Owner}

/-! ### What stands in a part -/

def Cell.members? : Cell → Option (List Slot)
  | .list slots => some slots
  | .node _ _ _ => none

/-- Whether a list or a construct is at a place, and the members of a list. -/
def Store.kind (store : Store) (id : Nat) : Option (Option (List Slot)) :=
  (store.cell? id).map Cell.members?

theorem Store.kind_of_cell {cell : Cell} (found : store.cell? id = some cell) :
    store.kind id = some cell.members? := by
  simp [Store.kind, found]

theorem Store.node_of_kind (kind : store.kind id = some none) :
    ∃ form slots owner, store.cell? id = some (.node form slots owner) := by
  obtain ⟨cell, found, members⟩ := Option.map_eq_some_iff.mp kind
  cases cell with
  | list => cases members
  | node form slots owner => exact ⟨form, slots, owner, found⟩

theorem Store.list_of_kind (kind : store.kind id = some (some slots)) :
    store.cell? id = some (.list slots) := by
  obtain ⟨cell, found, members⟩ := Option.map_eq_some_iff.mp kind
  cases cell with
  | list => cases members; exact found
  | node => cases members

/-- The construct with a number is at a slot, or in a list there. -/
inductive Store.Stands (store : Store) : Slot → Nat → Prop
  | construct {id : Nat} (kind : store.kind id = some none) : Stands store (.ref id) id
  | member {list id : Nat} {slots : List Slot} {slot : Slot} (kind : store.kind list = some (some slots))
      (inside : slot ∈ slots) (stands : Stands store slot id) : Stands store (.ref list) id

theorem Store.Stands.eq (stands : store.Stands (.ref a) c) (kind : store.kind a = some none) :
    c = a := by
  cases stands with
  | construct => rfl
  | member kind' => cases kind.symm.trans kind'

theorem Store.Stands.of_list (stands : store.Stands (.ref a) c)
    (kind : store.kind a = some (some slots)) : ∃ slot ∈ slots, store.Stands slot c := by
  cases stands with
  | construct kind' => cases kind.symm.trans kind'
  | member kind' inside stands =>
    cases kind.symm.trans kind'
    exact ⟨_, inside, stands⟩

/-- Some places from which cells lead only to each other. -/
def Store.Closes (store : Store) (places : Nat → Prop) : Prop :=
  ∀ ⦃id cell⦄, places id → store.cell? id = some cell → ∀ other, .ref other ∈ cell.slots → places other

def Slot.Into (places : Nat → Prop) (slot : Slot) : Prop := ∀ id, slot = .ref id → places id

theorem Store.ClosedFrom.closes (closed : store.ClosedFrom low) : store.Closes (low ≤ ·) :=
  fun _ _ above found _ inside => (closed above found _ inside).1

theorem Store.ClosedFrom.closes_below (closed : store.ClosedFrom 0) :
    store.Closes (· < store.cells.size) :=
  fun _ _ _ found _ inside => (closed (Nat.zero_le _) found _ inside).2

theorem Store.Closes.members {places : Nat → Prop} (closes : store.Closes places) (inside : places id)
    (kind : store.kind id = some (some slots)) : ∀ slot ∈ slots, slot.Into places := by
  intro slot member other same
  subst same
  exact closes inside (Store.list_of_kind kind) other member

theorem Store.Stands.places {places : Nat → Prop} (stands : store.Stands slot c)
    (closes : store.Closes places) (into : slot.Into places) : places c := by
  induction stands with
  | construct => exact into _ rfl
  | member kind inside _ ih => exact ih (closes.members (into _ rfl) kind _ inside)

theorem Store.Stands.transfer {places : Nat → Prop} (stands : store.Stands slot c)
    (closes : store.Closes places) (into : slot.Into places)
    (same : ∀ id, places id → store'.kind id = store.kind id) : store'.Stands slot c := by
  induction stands with
  | construct kind => exact .construct ((same _ (into _ rfl)).trans kind)
  | member kind inside _ ih =>
    exact .member ((same _ (into _ rfl)).trans kind) inside
      (ih (closes.members (into _ rfl) kind _ inside))

theorem Store.Stands.transfer_back {places : Nat → Prop} (stands : store'.Stands slot c)
    (closes : store.Closes places) (into : slot.Into places)
    (same : ∀ id, places id → store'.kind id = store.kind id) : store.Stands slot c := by
  induction stands with
  | construct kind => exact .construct ((same _ (into _ rfl)).symm.trans kind)
  | member kind inside _ ih =>
    have kind := (same _ (into _ rfl)).symm.trans kind
    exact .member kind inside (ih (closes.members (into _ rfl) kind _ inside))

/-! ### Which parts are owned -/

def Owner.isVacant : Owner → Bool
  | .unset | .none => true
  | _ => false

def Form.ownedParts : Form → List Nat
  | .module .bare | .module .body | .module .interface => [1, 2]
  | .module .types | .module .constants | .module .sensors | .module .groups => [0]
  | .decl .operator => [Operator.bodyIndex]
  | .scope .equations | .scope .variables | .scope .emissions | .scope .assumptions |
      .scope .guarantees => [0]
  | .diagram .diagram => [0]
  | .equation .machine => [1]
  | .equation .state => [1, 2, 3]
  | .equation .transitionDecl => [1]
  | .equation .activateIf => [0]
  | .equation .activateWhen => [0, 1]
  | _ => []

/-- Whether a construct owns what stands in a part. -/
def Form.owns (form : Form) (i : Nat) : Bool := form.ownedParts.contains i

def Adoption.part : Adoption → Nat
  | .argument i | .argumentMembers i | .partMembers i => i

theorem owns_iff_adopts (other : i ≠ Operator.bodyIndex) :
    form.owns i = true ↔ ∃ adoption ∈ form.adoptions, adoption.part = i := by
  rw [Form.owns, List.contains_iff_mem]
  cases form <;> rename_i form <;> cases form <;>
    simp [Form.ownedParts, Form.adoptions, Adoption.part, other, eq_comm, or_comm]

/-- A construct owns what stands in the parts that it owns, and nobody owns what stands in its other
parts. The part for bodies is left out. -/
def Store.Tidy (store : Store) (a : Nat) : Prop :=
  ∀ ⦃form slots owner⦄, store.cell? a = some (.node form slots owner) →
    ∀ ⦃i slot⦄, i ≠ Operator.bodyIndex → slots[i]? = some slot → ∀ ⦃c⦄, store.Stands slot c →
      if form.owns i then store.owner c = .construct a else (store.owner c).isVacant = true

/-! ### Adoption -/

theorem Adopts.kind {taken : List Slot} (adopts : Adopts new taken store store') (id : Nat) :
    store'.kind id = store.kind id := by
  rcases adopts.stays id with same | ⟨-, _, _, _, _, before, after⟩
  · rw [Store.kind, Store.kind, same]
  · rw [Store.kind_of_cell before, Store.kind_of_cell after]
    rfl

theorem Adopts.stands_iff {taken : List Slot} (adopts : Adopts new taken store store') :
    store'.Stands slot c ↔ store.Stands slot c := by
  have all : store.Closes fun _ => True := fun _ _ _ _ _ _ => trivial
  constructor
  · intro stands
    exact stands.transfer_back all (fun _ _ => trivial) fun id _ => adopts.kind id
  · intro stands
    exact stands.transfer all (fun _ _ => trivial) fun id _ => adopts.kind id

theorem Adopts.owner_taken {taken : List Slot} (adopts : Adopts new taken store store')
    (member : .ref c ∈ taken) : store'.owner c = .construct new := by
  obtain ⟨_, _, _, -, after⟩ := adopts.owned c member
  rw [Store.owner, after]

theorem Adopts.owner_other {taken : List Slot} (adopts : Adopts new taken store store')
    (other : .ref c ∉ taken) : store'.owner c = store.owner c := by
  rw [Store.owner, Store.owner, adopts.others c other]

theorem Adopts.kind_taken {taken : List Slot} (adopts : Adopts new taken store store')
    (member : .ref c ∈ taken) : store.kind c = some none := by
  obtain ⟨_, _, _, before, -⟩ := adopts.owned c member
  exact Store.kind_of_cell before

/-- Only lists have members to be adopted, and these are constructs. -/
theorem adoptMembers_covers
    (ran : perform (do (← Work.ofExcept ((← Work.store).members slot)).forM (adopt (.ref new)))
      reader w = (.ok (), w'))
    (stands : w.store.Stands slot c) : .ref c ∈ w.store.listed slot := by
  have adopts := adoptMembers_adopts ran
  cases stands with
  | construct kind =>
    obtain ⟨form, inner, owner, found⟩ := Store.node_of_kind kind
    obtain ⟨_, _, looked, ran⟩ := bind_ok ran
    cases looked
    obtain ⟨_, _, given, -⟩ := bind_ok ran
    simp [Store.members, found] at given
  | member kind inside stands =>
    rw [Store.listed_list (Store.list_of_kind kind)] at adopts ⊢
    cases stands with
    | construct => exact inside
    | member kind' => cases (adopts.kind_taken inside).symm.trans kind'

/-- An adoption takes everything that stands in its part. -/
theorem carryOut_covers {adoption : Adoption}
    (ran : perform (carryOut (.ref new) slots slots adoption) reader w = (.ok (), w'))
    (stands : w.store.Stands (slots.getD adoption.part default) c) :
    .ref c ∈ adoption.taken w.store slots := by
  cases adoption with
  | argument i =>
    have adopts := adopt_adopts ran
    have same : slots.getD i default ∈ [slots.getD i default] := List.mem_cons_self
    change w.store.Stands (slots.getD i default) c at stands
    change .ref c ∈ [slots.getD i default]
    cases found : slots.getD i default with
    | ref id =>
      rw [found] at adopts same stands
      rw [stands.eq (adopts.kind_taken same)]
      exact same
    | atom => rw [found] at stands; cases stands
    | delayed => rw [found] at stands; cases stands
  | argumentMembers i => exact adoptMembers_covers ran stands
  | partMembers i => exact adoptMembers_covers ran stands

theorem carryOutAll_covers {adoptions : List Adoption} {adoption : Adoption}
    (listed : adoption ∈ adoptions)
    (ran : perform (adoptions.forM (carryOut (.ref new) slots slots)) reader w = (.ok (), w'))
    (stands : w.store.Stands (slots.getD adoption.part default) c) :
    .ref c ∈ adoption.taken w.store slots := by
  induction adoptions generalizing w with
  | nil => cases listed
  | cons first rest ih =>
    obtain ⟨_, w₁, one, others⟩ := bind_ok ran
    rcases List.mem_cons.mp listed with rfl | listed
    · exact carryOut_covers one stands
    · have adopts := carryOut_adopts one
      have taken := ih listed others (adopts.stands_iff.mpr stands)
      cases adoption with
      | argument i => exact taken
      | argumentMembers i => rwa [Adoption.taken, adopts.listed_eq] at taken
      | partMembers i => rwa [Adoption.taken, adopts.listed_eq] at taken

theorem Form.taken_stands (taken : .ref c ∈ form.taken store slots) (kind : store.kind c = some none) :
    ∃ adoption ∈ form.adoptions, store.Stands (slots.getD adoption.part default) c := by
  obtain ⟨adoption, listed, taken⟩ := List.mem_flatMap.mp taken
  refine ⟨adoption, listed, ?_⟩
  have members (inside : .ref c ∈ store.listed (slots.getD adoption.part default)) :
      store.Stands (slots.getD adoption.part default) c := by
    cases found : slots.getD adoption.part default with
    | ref id =>
      rw [found] at inside
      unfold Store.listed Store.members at inside
      dsimp only at inside
      split at inside
      · rename_i cell
        exact .member (Store.kind_of_cell cell) inside (.construct kind)
      · cases inside
    | atom t =>
      rw [found] at inside
      exact absurd inside (store.ref_not_listed t c)
    | delayed =>
      rw [found] at inside
      cases inside
  cases adoption with
  | argument i =>
    have same : .ref c = slots.getD i default := List.mem_singleton.mp taken
    change store.Stands (slots.getD i default) c
    rw [← same]
    exact .construct kind
  | argumentMembers i => exact members taken
  | partMembers i => exact members taken

theorem taken_iff_stands
    (ran : perform (form.adoptions.forM (carryOut (.ref new) slots slots)) reader w = (.ok (), w')) :
    .ref c ∈ form.taken w.store slots ↔
      ∃ adoption ∈ form.adoptions, w.store.Stands (slots.getD adoption.part default) c := by
  constructor
  · intro taken
    exact Form.taken_stands taken ((carryOutAll_adopts ran).kind_taken taken)
  · rintro ⟨adoption, listed, stands⟩
    exact List.mem_flatMap.mpr ⟨adoption, listed, carryOutAll_covers listed ran stands⟩

/-! ### The stack -/

/-- A store while terms are loaded into the cells from `low` on, with the slots that are not yet in
a new cell. -/
structure Stacked (store : Store) (low : Nat) (stack : List Slot) : Prop where
  closed : store.ClosedFrom 0
  within : ∀ slot ∈ stack, slot.Within 0 store.cells.size
  tidy : ∀ a, low ≤ a → store.Tidy a
  vacant : ∀ slot ∈ stack, ∀ c, store.Stands slot c → (store.owner c).isVacant = true
  free : ∀ slot ∈ stack, ∀ c, store.Stands slot c → ∀ {a form parts owner}, low ≤ a →
    store.cell? a = some (.node form parts owner) → ∀ part ∈ parts, ¬ store.Stands part c
  apart : stack.Pairwise fun slot other => ∀ c, store.Stands slot c → ¬ store.Stands other c

/-- A store with one more cell: below it cells change at most the owners of what stands at some
slots. -/
structure Extends (store store' : Store) (slots : List Slot) : Prop where
  kinds : ∀ id < store.cells.size, store'.kind id = store.kind id
  nodes : ∀ {a form parts owner}, a < store.cells.size → store'.cell? a = some (.node form parts owner) →
    ∃ owner', store.cell? a = some (.node form parts owner')
  owners : ∀ c, (∀ slot ∈ slots, ¬ store.Stands slot c) → c < store.cells.size →
    store'.owner c = store.owner c
  size : store'.cells.size = store.cells.size + 1

theorem Slot.Within.into {high : Nat} (within : slot.Within low high) : slot.Into (· < high) := by
  rintro id rfl
  exact within.2

namespace Stacked

theorem lt (stacked : Stacked store low stack) (within : slot.Within 0 store.cells.size)
    (stands : store.Stands slot c) : c < store.cells.size :=
  stands.places stacked.closed.closes_below within.into

theorem stands_iff (stacked : Stacked store low stack) (extends' : Extends store store' slots)
    (within : slot.Within 0 store.cells.size) : store'.Stands slot c ↔ store.Stands slot c := by
  constructor
  · intro stands
    exact stands.transfer_back stacked.closed.closes_below within.into extends'.kinds
  · intro stands
    exact stands.transfer stacked.closed.closes_below within.into extends'.kinds

/-- What is below the new cell stays tidy, since nothing that gets another owner stands in a part
there. -/
theorem tidy_below (stacked : Stacked store low (stack ++ slots)) (extends' : Extends store store' slots)
    (above : low ≤ a) (below : a < store.cells.size) : store'.Tidy a := by
  intro form parts owner found i part other at' c stands
  obtain ⟨owner', before⟩ := extends'.nodes below found
  have member := List.mem_of_getElem? at'
  have within := stacked.closed (Nat.zero_le _) before part member
  rw [stacked.stands_iff extends' within] at stands
  have same : store'.owner c = store.owner c := by
    refine extends'.owners c (fun slot inside standing => ?_) (stacked.lt within stands)
    exact stacked.free slot (List.mem_append_right _ inside) c standing above before part member stands
  rw [same]
  exact stacked.tidy a above before other at' stands

theorem within_below (stacked : Stacked store low (stack ++ slots)) (inside : slot ∈ stack) :
    slot.Within 0 store.cells.size :=
  stacked.within slot (List.mem_append_left _ inside)

theorem stands_below (stacked : Stacked store low (stack ++ slots))
    (extends' : Extends store store' slots) (inside : slot ∈ stack)
    (stands : store'.Stands slot c) : store.Stands slot c :=
  (stacked.stands_iff extends' (stacked.within_below inside)).mp stands

/-- What stands on the stack below the top does not stand at the top. -/
theorem not_on_top (stacked : Stacked store low (stack ++ slots)) {other : Slot} (inside : slot ∈ stack)
    (top : other ∈ slots) (stands : store.Stands slot c) : ¬ store.Stands other c :=
  (List.pairwise_append.mp stacked.apart).2.2 slot inside other top c stands

theorem vacant_below (stacked : Stacked store low (stack ++ slots))
    (extends' : Extends store store' slots) (inside : slot ∈ stack)
    (stands : store'.Stands slot c) : (store'.owner c).isVacant = true := by
  have before := stacked.stands_below extends' inside stands
  have nowhere (other : Slot) (top : other ∈ slots) : ¬ store.Stands other c :=
    stacked.not_on_top inside top before
  rw [extends'.owners c nowhere (stacked.lt (stacked.within_below inside) before)]
  exact stacked.vacant slot (List.mem_append_left _ inside) c before

theorem part_within (stacked : Stacked store low (stack ++ slots))
    (extends' : Extends store store' slots) {cell : Cell}
    (found : store'.cell? store.cells.size = some cell) (contents : cell.slots = slots)
    {parts : List Slot} {owner : Owner} (present : store'.cell? a = some (.node form parts owner))
    {part : Slot} (member : part ∈ parts) :
    part.Within 0 store.cells.size := by
  rcases Nat.lt_or_ge a store.cells.size with smaller | larger
  · obtain ⟨_, before⟩ := extends'.nodes smaller present
    exact stacked.closed (Nat.zero_le _) before part member
  · have last := Store.lt_of_cell? present
    rw [extends'.size] at last
    obtain rfl : a = store.cells.size := by omega
    cases found.symm.trans present
    exact stacked.within part (List.mem_append_right _ (contents ▸ member))

theorem eq_of_part (stacked : Stacked store low (stack ++ slots)) (extends' : Extends store store' slots)
    (inside : slot ∈ stack ++ slots) (stands : store.Stands slot c) (above : low ≤ a)
    {parts : List Slot} {owner : Owner} (present : store'.cell? a = some (.node form parts owner))
    {part : Slot} (member : part ∈ parts) (standing : store.Stands part c) : a = store.cells.size := by
  by_contra different
  have last := Store.lt_of_cell? present
  rw [extends'.size] at last
  obtain ⟨_, before⟩ := extends'.nodes (by omega) present
  exact stacked.free slot inside c stands above before part member standing

theorem push (stacked : Stacked store low (stack ++ slots)) (extends' : Extends store store' slots)
    (closed : store'.ClosedFrom 0) {cell : Cell} (found : store'.cell? store.cells.size = some cell)
    (contents : cell.slots = slots) (tidy : store'.Tidy store.cells.size)
    (vacant : ∀ c, store'.Stands (.ref store.cells.size) c → (store'.owner c).isVacant = true)
    (inner : ∀ c, store'.Stands (.ref store.cells.size) c →
      c = store.cells.size ∨ (∃ slot ∈ slots, store.Stands slot c) ∧ cell.members?.isSome) :
    Stacked store' low (stack ++ [.ref store.cells.size]) := by
  refine ⟨closed, ?_, ?_, ?_, ?_, ?_⟩
  · intro slot inside
    rw [extends'.size]
    rcases List.mem_append.mp inside with inside | inside
    · exact (stacked.within_below inside).widen (Nat.le_refl _) (Nat.le_succ _)
    · rw [List.mem_singleton.mp inside]
      exact ⟨Nat.zero_le _, Nat.lt_succ_self _⟩
  · intro a above
    rcases Nat.lt_trichotomy a store.cells.size with smaller | same | larger
    · exact stacked.tidy_below extends' above smaller
    · rw [same]
      exact tidy
    · intro form parts owner present
      have inside := Store.lt_of_cell? present
      rw [extends'.size] at inside
      omega
  · intro slot inside c stands
    rcases List.mem_append.mp inside with inside | inside
    · exact stacked.vacant_below extends' inside stands
    · rw [List.mem_singleton.mp inside] at stands
      exact vacant c stands
  · intro slot inside c stands a form parts owner above present part member standing
    have within := stacked.part_within extends' found contents present member
    have standing := (stacked.stands_iff extends' within).mp standing
    rcases List.mem_append.mp inside with inside | inside
    · have stands := stacked.stands_below extends' inside stands
      obtain rfl := stacked.eq_of_part extends' (List.mem_append_left _ inside) stands above present
        member standing
      cases found.symm.trans present
      exact stacked.not_on_top inside (contents ▸ member) stands standing
    · rw [List.mem_singleton.mp inside] at stands
      rcases inner c stands with rfl | ⟨⟨other, top, stands⟩, isList⟩
      · exact Nat.lt_irrefl _ (stacked.lt within standing)
      · obtain rfl := stacked.eq_of_part extends' (List.mem_append_right _ top) stands above present
          member standing
        cases found.symm.trans present
        cases isList
  · refine List.pairwise_append.mpr ⟨?_, List.pairwise_singleton _ _, ?_⟩
    · refine (List.pairwise_append.mp stacked.apart).1.imp_of_mem
        fun first second apart c stands standing => ?_
      exact apart c (stacked.stands_below extends' first stands)
        (stacked.stands_below extends' second standing)
    · intro slot inside other last c stands standing
      rw [List.mem_singleton.mp last] at standing
      have stands := stacked.stands_below extends' inside stands
      rcases inner c standing with rfl | ⟨⟨top, member, standing⟩, -⟩
      · exact Nat.lt_irrefl _ (stacked.lt (stacked.within_below inside) stands)
      · exact stacked.not_on_top inside member stands standing

theorem plain (stacked : Stacked store low stack) (within : slot.Within 0 store.cells.size)
    (none : ∀ c, ¬ store.Stands slot c) : Stacked store low (stack ++ [slot]) where
  closed := stacked.closed
  within := by
    intro other inside
    rcases List.mem_append.mp inside with inside | inside
    · exact stacked.within other inside
    · rw [List.mem_singleton.mp inside]
      exact within
  tidy := stacked.tidy
  vacant := by
    intro other inside c stands
    rcases List.mem_append.mp inside with inside | inside
    · exact stacked.vacant other inside c stands
    · rw [List.mem_singleton.mp inside] at stands
      exact absurd stands (none c)
  free := by
    intro other inside c stands
    rcases List.mem_append.mp inside with inside | inside
    · exact stacked.free other inside c stands
    · rw [List.mem_singleton.mp inside] at stands
      exact absurd stands (none c)
  apart := by
    refine List.pairwise_append.mpr ⟨stacked.apart, List.pairwise_singleton _ _, ?_⟩
    intro first _ other inside c _
    rw [List.mem_singleton.mp inside]
    exact none c

theorem extends_add (store : Store) (cell : Cell) (slots : List Slot) :
    Extends store (store.add cell).2 slots where
  kinds id below := by rw [Store.kind, Store.kind, Store.cell?_add_of_lt _ _ below]
  nodes below found := ⟨_, (Store.cell?_add_of_lt _ _ below).symm.trans found⟩
  owners c _ below := by rw [Store.owner, Store.owner, Store.cell?_add_of_lt _ _ below]
  size := by simp [Store.add]

theorem list (stacked : Stacked store low (stack ++ slots))
    (closed : (store.add (.list slots)).2.ClosedFrom 0) :
    Stacked (store.add (.list slots)).2 low (stack ++ [.ref store.cells.size]) := by
  have extends' := extends_add store (.list slots) slots
  have found := Store.cell?_add store (.list slots)
  have inner (c : Nat) (stands : (store.add (.list slots)).2.Stands (.ref store.cells.size) c) :
      ∃ slot ∈ slots, store.Stands slot c := by
    obtain ⟨slot, inside, stands⟩ := stands.of_list (Store.kind_of_cell found)
    exact ⟨slot, inside, (stacked.stands_iff extends'
      (stacked.within slot (List.mem_append_right _ inside))).mp stands⟩
  refine stacked.push extends' closed found rfl ?_ ?_ fun c stands => .inr ⟨inner c stands, rfl⟩
  · intro form parts owner present
    cases found.symm.trans present
  · intro c stands
    obtain ⟨slot, inside, stands⟩ := inner c stands
    have within := stacked.within slot (List.mem_append_right _ inside)
    have same : (store.add (.list slots)).2.owner c = store.owner c := by
      rw [Store.owner, Store.owner, Store.cell?_add_of_lt _ _ (stacked.lt within stands)]
    rw [same]
    exact stacked.vacant slot (List.mem_append_right _ inside) c stands

theorem position_eq (stacked : Stacked store low (stack ++ slots)) {j : Nat} {other : Slot}
    (first : slots[i]? = some slot) (second : slots[j]? = some other) (stands : store.Stands slot c)
    (standing : store.Stands other c) : i = j := by
  have apart := (List.pairwise_append.mp stacked.apart).2.1
  obtain ⟨inside, rfl⟩ := List.getElem?_eq_some_iff.mp first
  obtain ⟨inside', rfl⟩ := List.getElem?_eq_some_iff.mp second
  rcases Nat.lt_trichotomy i j with smaller | same | larger
  · exact absurd standing (List.pairwise_iff_getElem.mp apart i j inside inside' smaller c stands)
  · exact same
  · exact absurd stands (List.pairwise_iff_getElem.mp apart j i inside' inside larger c standing)

end Stacked

theorem getD_eq_of_stands (stands : store.Stands (slots.getD i default) c) :
    slots[i]? = some (slots.getD i default) := by
  rw [List.getD_eq_getElem?_getD] at stands ⊢
  cases found : slots[i]? with
  | some slot => rfl
  | none =>
    rw [found] at stands
    cases stands

/-! ### A new construct -/

namespace Stacked

section

variable {cell : Cell} {taken : List Slot}

theorem stands_add (stacked : Stacked store low (stack ++ slots)) (inside : slot ∈ slots) :
    (store.add cell).2.Stands slot c ↔ store.Stands slot c :=
  stacked.stands_iff (extends_add store cell slots)
    (stacked.within slot (List.mem_append_right _ inside))

/-- A new construct takes what stands in the parts that it adopts, also before it is there. -/
theorem taken_iff (stacked : Stacked w.store low (stack ++ slots))
    (adopted : perform (form.adoptions.forM (carryOut (.ref new) slots slots)) reader
      { w with store := (w.store.add cell).2 } = (.ok (), w')) :
    .ref c ∈ form.taken (w.store.add cell).2 slots ↔
      ∃ adoption ∈ form.adoptions, ∃ part, slots[adoption.part]? = some part ∧
        w.store.Stands part c := by
  refine (taken_iff_stands adopted).trans (exists_congr fun adoption => and_congr_right fun _ => ?_)
  constructor
  · intro stands
    have at' := getD_eq_of_stands stands
    exact ⟨_, at', (stacked.stands_add (List.mem_of_getElem? at')).mp stands⟩
  · rintro ⟨part, at', stands⟩
    have same : slots.getD adoption.part default = part := by
      rw [List.getD_eq_getElem?_getD, at']
      rfl
    rw [same]
    exact (stacked.stands_add (List.mem_of_getElem? at')).mpr stands

theorem extends_adopts (adopts : Adopts new taken (store.add cell).2 store')
    (covered : ∀ c, .ref c ∈ taken → ∃ part ∈ slots, store.Stands part c) :
    Extends store store' slots := by
  have added := extends_add store cell slots
  refine ⟨fun id below => (adopts.kind id).trans (added.kinds id below), ?_, ?_,
    adopts.size.trans added.size⟩
  · intro a form parts owner below present
    rcases adopts.stays a with same | ⟨-, _, _, _, _, before, after⟩
    · exact added.nodes below (same.symm.trans present)
    · cases after.symm.trans present
      exact added.nodes below before
  · intro c nowhere below
    have other : .ref c ∉ taken := by
      intro inside
      obtain ⟨part, member, stands⟩ := covered c inside
      exact nowhere part member stands
    exact (adopts.owner_other other).trans (added.owners c nowhere below)

/-- The new construct comes behind its parts, so that it is not among what it takes. -/
theorem new_not_taken (stacked : Stacked store low (stack ++ slots))
    (covered : ∀ c, .ref c ∈ taken → ∃ part ∈ slots, store.Stands part c) :
    .ref store.cells.size ∉ taken := by
  intro inside
  obtain ⟨part, member, stands⟩ := covered _ inside
  exact Nat.lt_irrefl _ (stacked.lt (stacked.within part (List.mem_append_right _ member)) stands)

/-- A new construct is tidy: what stands in a part that it does not adopt has no owner yet. -/
theorem tidy_new (stacked : Stacked store low (stack ++ slots))
    (adopts : Adopts store.cells.size taken (store.add cell).2 store')
    (taken_iff : ∀ c, .ref c ∈ taken ↔
      ∃ adoption ∈ form.adoptions, ∃ part, slots[adoption.part]? = some part ∧ store.Stands part c)
    (present : store'.cell? store.cells.size = some (.node form slots owner)) :
    store'.Tidy store.cells.size := by
  intro form' parts owner' found i part other at' c stands
  obtain ⟨rfl, rfl, -⟩ := Cell.node.inj (Option.some.inj (present.symm.trans found))
  have inside := List.mem_of_getElem? at'
  have stands := (stacked.stands_add inside).mp (adopts.stands_iff.mp stands)
  split
  · rename_i owns
    obtain ⟨adoption, listed, rfl⟩ := (owns_iff_adopts other).mp owns
    exact adopts.owner_taken ((taken_iff c).mpr ⟨adoption, listed, part, at', stands⟩)
  · rename_i disowns
    have untaken : .ref c ∉ taken := by
      intro takes
      obtain ⟨adoption, listed, _, at'', standing⟩ := (taken_iff c).mp takes
      have same := stacked.position_eq at' at'' stands standing
      exact disowns ((owns_iff_adopts other).mpr ⟨adoption, listed, same.symm⟩)
    have within := stacked.within part (List.mem_append_right _ inside)
    rw [adopts.owner_other untaken, Store.owner, Store.cell?_add_of_lt _ _ (stacked.lt within stands)]
    exact stacked.vacant part (List.mem_append_right _ inside) c stands

end

/-- A new construct takes what stands in the parts that it owns, and nothing else. -/
theorem node (stacked : Stacked w.store low (stack ++ slots))
    (ran : perform (addNode form slots slots) reader w = (.ok slot, w'))
    (closed : w'.store.ClosedFrom 0) :
    Stacked w'.store low (stack ++ [slot]) := by
  obtain ⟨_, w₁, added, ran⟩ := bind_ok ran
  rw [perform_add] at added
  cases added
  obtain ⟨_, w₂, adopted, ran⟩ := bind_ok ran
  cases ran
  let cell := Cell.node form slots (if form.startsUnowned then Owner.none else .unset)
  have adopts := carryOutAll_adopts adopted
  change Adopts w.store.cells.size (form.taken (w.store.add cell).2 slots) (w.store.add cell).2
    w'.store at adopts
  have covered (c : Nat) (taken : .ref c ∈ form.taken (w.store.add cell).2 slots) :
      ∃ part ∈ slots, w.store.Stands part c := by
    obtain ⟨_, _, part, at', stands⟩ := (stacked.taken_iff adopted).mp taken
    exact ⟨part, List.mem_of_getElem? at', stands⟩
  have present : w'.store.cell? w.store.cells.size = some cell :=
    (adopts.others _ (stacked.new_not_taken covered)).trans (Store.cell?_add w.store cell)
  have self {c : Nat} (stands : w'.store.Stands (.ref w.store.cells.size) c) : c = w.store.cells.size :=
    stands.eq (Store.kind_of_cell present)
  refine stacked.push (extends_adopts adopts covered) closed present rfl ?_ ?_ fun c stands =>
    .inl (self stands)
  · exact stacked.tidy_new adopts (fun c => stacked.taken_iff adopted) present
  · intro c stands
    rw [self stands, Store.owner, present]
    change (if form.startsUnowned then Owner.none else .unset).isVacant = true
    split <;> rfl

end Stacked

mutual

theorem load_stacked (t : Term) (w : Workspace) {stack : List Slot} {slot : Slot} {w' : Workspace}
    (stacked : Stacked w.store low stack) (ran : perform (load t) reader w = (.ok slot, w')) :
    Stacked w'.store low (stack ++ [slot]) := by
  cases t with
  | list items =>
    have built := load_builds (.list items) reader w (Nat.zero_le _) stacked.closed
    rw [Builds, ran] at built
    have closed := built.1.closed stacked.closed
    obtain ⟨slots, w₁, loaded, ran⟩ := bind_ok ran
    have stacked := loadAll_stacked items w stacked loaded
    rw [perform_add] at ran
    cases ran
    exact stacked.list closed
  | node form parts =>
    have built := load_builds (.node form parts) reader w (Nat.zero_le _) stacked.closed
    rw [Builds, ran] at built
    have closed := built.1.closed stacked.closed
    obtain ⟨slots, w₁, loaded, ran⟩ := bind_ok ran
    exact (loadAll_stacked parts w stacked loaded).node ran closed
  | _ =>
    cases ran
    exact stacked.plain trivial fun c stands => by cases stands

theorem loadAll_stacked (ts : List Term) (w : Workspace) {stack slots : List Slot} {w' : Workspace}
    (stacked : Stacked w.store low stack) (ran : perform (loadAll ts) reader w = (.ok slots, w')) :
    Stacked w'.store low (stack ++ slots) := by
  cases ts with
  | nil =>
    cases ran
    rw [List.append_nil]
    exact stacked
  | cons t rest =>
    obtain ⟨slot, w₁, first, ran⟩ := bind_ok ran
    obtain ⟨slots, w₂, others, ran⟩ := bind_ok ran
    cases ran
    have both := loadAll_stacked rest w₁ (load_stacked t w stacked first) others
    rwa [List.append_assoc] at both

end

end SwanModel
