import SwanModel.Proofs.Store.FullPath
import SwanModel.Proofs.Store.OwnedParts
import Mathlib.Logic.Relation

/-!
# Chains of owners

The owners of a declaration lead to its module. From what lies deeper they do so if each construct
on the way down from the module owns the part that is entered.
-/

namespace SwanModel

open Work Relation

variable {α : Type} {reader : Reader} {w w' v : Workspace} {store store' : Store} {t : Term}
  {slot body : Slot} {slots : List Slot} {id a c m i operator : Nat} {form : Form} {owner : Owner}
  {places : Nat → Prop} {tree : ParseTree}

/-! ### Steps in a workspace -/

/-- What is done to a workspace from outside: the store stays, a term is loaded, or a body is asked
for. -/
inductive WorkStep (reader : Reader) : Workspace → Workspace → Prop
  | other {w w' : Workspace} (same : w'.store = w.store) : WorkStep reader w w'
  | load (t : Term) (w : Workspace) : WorkStep reader w (perform (load t) reader w).2
  | force (id : Nat) (w : Workspace) : WorkStep reader w (perform (force id) reader w).2

def Working (reader : Reader) : Workspace → Workspace → Prop := ReflTransGen (WorkStep reader)

instance : Lasting Working where
  refl _ _ := .refl
  trans first second := first.trans second

instance (lines : List LogLine) : Keeps Working (Work.log lines) := ⟨fun _ _ => .single (.other rfl)⟩

instance (c : Conversion α) : Keeps Working (ofConversion c) where
  keeps reader w := by
    rw [perform_ofConversion]
    exact .single (.other rfl)

instance (t : Term) : Keeps Working (load t) := ⟨fun _ w => .single (.load t w)⟩

instance (id : Nat) : Keeps Working (force id) := ⟨fun _ w => .single (.force id w)⟩

instance (access : Access) : Keeps Working access.work := by
  cases access with
  | parse call => unfold Access.work obtain; infer_instance
  | property name id => unfold Access.work; infer_instance
  | text id => unfold Access.work print; infer_instance

theorem working_after (reader : Reader) (w : Workspace) (accesses : List Access) :
    Working reader w (w.after reader accesses) := keeps_after reader w accesses

/-! ### The cells of a module -/

/-- A cell stays as it is, but for the part for bodies. -/
def Unmoved (store store' : Store) (id : Nat) : Prop :=
  store'.cell? id = store.cell? id ∨
    ∃ form slots owner body, store.cell? id = some (.node form slots owner) ∧
      store'.cell? id = some (.node form (slots.set Operator.bodyIndex body) owner)

theorem Unmoved.kind (unmoved : Unmoved store store' id) : store'.kind id = store.kind id := by
  rcases unmoved with same | ⟨_, _, _, _, before, after⟩
  · rw [Store.kind, Store.kind, same]
  · rw [Store.kind_of_cell before, Store.kind_of_cell after]
    rfl

theorem Unmoved.owner_eq (unmoved : Unmoved store store' id) : store'.owner id = store.owner id := by
  rcases unmoved with same | ⟨_, _, _, _, before, after⟩
  · rw [Store.owner, Store.owner, same]
  · rw [Store.owner_eq before, Store.owner_eq after]

theorem Unmoved.parts (unmoved : Unmoved store store' id)
    (found : store'.cell? id = some (.node form slots owner)) :
    ∃ slots', store.cell? id = some (.node form slots' owner) ∧
      ∀ i ≠ Operator.bodyIndex, slots[i]? = slots'[i]? := by
  rcases unmoved with same | ⟨_, slots', _, _, before, after⟩
  · exact ⟨slots, same.symm.trans found, fun _ _ => rfl⟩
  · obtain ⟨rfl, rfl, rfl⟩ := Cell.node.inj (Option.some.inj (after.symm.trans found))
    exact ⟨slots', before, fun i other => List.getElem?_set_ne other.symm⟩

theorem Store.Tidy.keep (tidy : store.Tidy a) (closes : store.Closes places) (inside : places a)
    (unmoved : ∀ id, places id → Unmoved store store' id) : store'.Tidy a := by
  intro form slots owner found i slot other at' c stands
  obtain ⟨slots', before, same⟩ := (unmoved a inside).parts found
  rw [same i other] at at'
  have into : slot.Into places := by
    rintro id rfl
    exact closes inside before id (List.mem_of_getElem? at')
  have stands := stands.transfer_back closes into fun id inside => (unmoved id inside).kind
  rw [(unmoved c (stands.places closes into)).owner_eq]
  exact tidy before other at' stands

/-- The cells of a module: they lead to each other, the module itself stands in no part, and all of
them are tidy. -/
structure Store.Region (store : Store) (m : Nat) (places : Nat → Prop) : Prop where
  top : places m
  present : ∀ id, places id → id < store.cells.size
  closes : store.Closes places
  alone : ∀ {a form parts owner}, places a → store.cell? a = some (.node form parts owner) →
    ∀ part ∈ parts, ¬ store.Stands part m
  tidy : ∀ a, places a → store.Tidy a

theorem Store.Closes.part (closes : store.Closes places) (inside : places a)
    (found : store.cell? a = some (.node form slots owner)) (member : slot ∈ slots) :
    slot.Into places := by
  rintro id rfl
  exact closes inside found id member

/-- Work on new cells leaves the cells of a module alone. -/
theorem Store.Region.fresh (region : w.store.Region m places)
    (old : ∀ id < w.store.cells.size, w'.store.cell? id = w.store.cell? id)
    (larger : w.store.cells.size ≤ w'.store.cells.size) : w'.store.Region m places := by
  have same (id : Nat) (inside : places id) : w'.store.cell? id = w.store.cell? id :=
    old id (region.present id inside)
  refine ⟨region.top, ?_, ?_, ?_, ?_⟩
  · intro id inside
    exact Nat.lt_of_lt_of_le (region.present id inside) larger
  · intro id cell inside found
    exact region.closes inside ((same id inside).symm.trans found)
  · intro a form parts owner inside found part member stands
    have before := (same a inside).symm.trans found
    have into := region.closes.part inside before member
    have standing := stands.transfer_back region.closes into fun id inside =>
      Unmoved.kind (.inl (same id inside))
    exact region.alone inside before part member standing
  · intro a inside
    exact (region.tidy a inside).keep region.closes inside fun id inside => .inl (same id inside)

theorem stacked_empty (closed : store.ClosedFrom 0) : Stacked store store.cells.size [] where
  closed := closed
  within := by simp
  tidy a above := by
    intro form slots owner found
    exact absurd (Store.lt_of_cell? found) (Nat.not_lt.mpr above)
  vacant := by simp
  free := by simp
  apart := .nil

/-- The new cells for a body are tidy, also when the operator has become its owner. -/
theorem keepBody_tidy (closed : w.store.ClosedFrom 0)
    (ran : perform (keepBody operator t) reader w = (.ok slot, w'))
    (above : w.store.cells.size ≤ a) : w'.store.Tidy a := by
  obtain ⟨slot, w₁, loaded, ran⟩ := bind_ok ran
  have stacked := load_stacked t w (stacked_empty closed) loaded
  rw [List.nil_append] at stacked
  cases slot with
  | atom =>
    cases ran
    exact stacked.tidy a above
  | delayed =>
    cases ran
    exact stacked.tidy a above
  | ref id =>
    obtain ⟨_, w₂, adopted, ran⟩ := bind_ok ran
    cases ran
    have adopts := adopt_adopts adopted
    have kind := adopts.kind_taken (List.mem_singleton_self _)
    intro form parts owner found i part other at' c stands
    obtain ⟨owner', before⟩ : ∃ owner', w₁.store.cell? a = some (.node form parts owner') := by
      rcases adopts.stays a with same | ⟨-, _, _, _, _, before, after⟩
      · exact ⟨owner, same.symm.trans found⟩
      · cases after.symm.trans found
        exact ⟨_, before⟩
    have stands := adopts.stands_iff.mp stands
    have untaken : .ref c ∉ [Slot.ref id] := by
      intro taken
      cases List.mem_singleton.mp taken
      exact stacked.free _ List.mem_cons_self id (.construct kind) above before part
        (List.mem_of_getElem? at') stands
    rw [adopts.owner_other untaken]
    exact stacked.tidy a above before other at' stands

/-- An operator has got a body that is in new cells. -/
structure Store.GetsBody (store last : Store) (operator : Nat) (body : Slot) : Prop where
  larger : store.cells.size ≤ last.cells.size
  others : ∀ id < store.cells.size, id ≠ operator → last.cell? id = store.cell? id
  changed : ∃ form slots owner, store.cell? operator = some (.node form slots owner) ∧
    last.cell? operator = some (.node form (slots.set Operator.bodyIndex body) owner)
  within : body.Within store.cells.size last.cells.size
  closed : last.ClosedFrom store.cells.size
  tidy : ∀ a, store.cells.size ≤ a → last.Tidy a

namespace Store.GetsBody

variable {last : Store}

theorem of_set (old : ∀ id < store.cells.size, store'.cell? id = store.cell? id)
    (larger : store.cells.size ≤ store'.cells.size) (closed : store'.ClosedFrom store.cells.size)
    (tidy : ∀ a, store.cells.size ≤ a → store'.Tidy a)
    (found : store.cell? operator = some (.node form slots owner))
    (within : body.Within store.cells.size store'.cells.size) :
    store.GetsBody (store'.set operator (.node form (slots.set Operator.bodyIndex body) owner))
      operator body := by
  have small := Store.lt_of_cell? found
  have size : (store'.set operator (.node form (slots.set Operator.bodyIndex body) owner)).cells.size =
      store'.cells.size := by
    simp [Store.set]
  have here := Store.cell?_set_self (.node form (slots.set Operator.bodyIndex body) owner)
    (Nat.lt_of_lt_of_le small larger)
  have elsewhere (id : Nat) (other : operator ≠ id) :
      (store'.set operator (.node form (slots.set Operator.bodyIndex body) owner)).cell? id =
        store'.cell? id :=
    Store.cell?_set_of_ne _ _ other
  generalize store'.set operator (.node form (slots.set Operator.bodyIndex body) owner) = last at *
  refine ⟨size ▸ larger, ?_, ⟨form, slots, owner, found, here⟩, size ▸ within, ?_, ?_⟩
  · intro id below other
    rw [elsewhere id other.symm, old id below]
  · intro id cell low present
    rw [elsewhere id (by omega)] at present
    rw [size]
    exact closed low present
  · intro a above
    exact (tidy a above).keep closed.closes above fun id low => .inl (elsewhere id (by omega))

theorem cell_cases (gets : store.GetsBody last operator body) (below : id < store.cells.size) :
    last.cell? id = store.cell? id ∨ ∃ form slots owner, store.cell? id = some (.node form slots owner) ∧
      last.cell? id = some (.node form (slots.set Operator.bodyIndex body) owner) := by
  by_cases same : id = operator
  · subst same
    exact .inr gets.changed
  · exact .inl (gets.others id below same)

theorem unmoved (gets : store.GetsBody last operator body) (below : id < store.cells.size) :
    Unmoved store last id := by
  rcases gets.cell_cases below with same | ⟨form, slots, owner, before, after⟩
  · exact .inl same
  · exact .inr ⟨form, slots, owner, body, before, after⟩

theorem not_stands (gets : store.GetsBody last operator body) (into : slot.Into (store.cells.size ≤ ·))
    (below : c < store.cells.size) : ¬ last.Stands slot c := by
  intro stands
  exact Nat.not_lt.mpr (stands.places gets.closed.closes into) below

end Store.GetsBody

/-- The cells of a module are, when an operator has got its body, the old ones and those of the
body. -/
theorem Store.Region.with_body {last : Store} (region : store.Region m places)
    (gets : store.GetsBody last operator body) :
    last.Region m fun id => places id ∨ store.cells.size ≤ id ∧ id < last.cells.size := by
  have unmoved (id : Nat) (inside : places id) : Unmoved store last id :=
    gets.unmoved (region.present id inside)
  have top := region.present m region.top
  refine ⟨.inl region.top, ?_, ?_, ?_, ?_⟩
  · rintro id (inside | inside)
    · exact Nat.lt_of_lt_of_le (region.present id inside) gets.larger
    · exact inside.2
  · rintro id cell (inside | inside) present other member
    · rcases gets.cell_cases (region.present id inside) with same | ⟨form, slots, owner, before, after⟩
      · exact .inl (region.closes inside (same.symm.trans present) other member)
      · obtain rfl := Option.some.inj (after.symm.trans present)
        rcases List.mem_or_eq_of_mem_set member with member | rfl
        · exact .inl (region.closes inside before other member)
        · exact .inr gets.within
    · exact .inr (gets.closed inside.1 present (.ref other) member)
  · rintro a form parts owner (inside | inside) present part member stands
    · -- An old part is one that the construct had before, unless it is the body.
      have standing {slots : List Slot} {owner : Owner}
          (found : store.cell? a = some (.node form slots owner)) (member : part ∈ slots) : False := by
        have into := region.closes.part inside found member
        have before := stands.transfer_back region.closes into fun id inside => (unmoved id inside).kind
        exact region.alone inside found part member before
      rcases gets.cell_cases (region.present a inside) with same | ⟨_, slots, _, before, after⟩
      · exact standing (same.symm.trans present) member
      · obtain ⟨rfl, rfl, -⟩ := Cell.node.inj (Option.some.inj (after.symm.trans present))
        rcases List.mem_or_eq_of_mem_set member with member | rfl
        · exact standing before member
        · exact gets.not_stands (fun id same => (same ▸ gets.within).1) top stands
    · exact gets.not_stands (gets.closed.closes.part inside.1 present member) top stands
  · rintro a (inside | inside)
    · exact (region.tidy a inside).keep region.closes inside unmoved
    · exact gets.tidy a inside.1

/-- When a body is asked for, the store stays as it is or the operator gets the body. -/
theorem force_effect (reader : Reader) (closed : w.store.ClosedFrom 0) (operator : Nat) :
    (perform (force operator) reader w).2.store = w.store ∨
      ∃ body, w.store.GetsBody (perform (force operator) reader w).2.store operator body := by
  rcases waits_or_idle reader closed operator with ⟨form, slots, owner, tree, found, delayed⟩ | idle
  · rw [perform_force found delayed]
    have fresh := compute_fresh operator tree reader w
    rcases computed : perform (compute operator (.tree tree)) reader w with ⟨e | body, w'⟩
    · have refused : perform (compute operator (.tree tree)) reader w = _ :=
        compute_refused (Prod.ext (compute_failed computed) rfl)
      rw [computed] at refused
      rw [(Prod.mk.inj refused).2]
      exact .inl rfl
    · rw [computed] at fresh
      obtain ⟨t, converted, within, -⟩ := compute_isBody found computed
      have kept := compute_converted (Prod.ext converted rfl) ▸ computed
      have tidy (a : Nat) (above : w.store.cells.size ≤ a) : w'.store.Tidy a := by
        refine keepBody_tidy ?_ kept above
        exact closed
      have gets := Store.GetsBody.of_set fresh.old fresh.larger
        (fresh.closed w.store.closedFrom_size) tidy found within
      exact .inr ⟨body, gets⟩
  · rw [idle]
    exact .inl rfl

/-- The cells of a module stay tidy when a body is asked for. -/
theorem force_region (reader : Reader) (closed : w.store.ClosedFrom 0) (region : w.store.Region m places)
    (operator : Nat) : ∃ places', (perform (force operator) reader w).2.store.Region m places' := by
  rcases force_effect reader closed operator with same | ⟨body, gets⟩
  · rw [same]
    exact ⟨places, region⟩
  · exact ⟨_, region.with_body gets⟩

theorem WorkStep.closed (step : WorkStep reader w w') (closed : w.store.ClosedFrom 0) :
    w'.store.ClosedFrom 0 := by
  cases step with
  | other same => rwa [same]
  | load t w =>
    have settled : Settling reader w _ := Keeps.keeps (x := Work.load t) reader w
    exact (settled closed).closed
  | force id w =>
    have settled : Settling reader w _ := Keeps.keeps (x := Work.force id) reader w
    exact (settled closed).closed

/-- What one step keeps, any number of steps keep. -/
theorem Working.region (working : Working reader w w') (closed : w.store.ClosedFrom 0)
    (region : w.store.Region m places) : ∃ places', w'.store.Region m places' := by
  have both : w'.store.ClosedFrom 0 ∧ ∃ places', w'.store.Region m places' := by
    induction working with
    | refl => exact ⟨closed, places, region⟩
    | tail _ step ih =>
      obtain ⟨closed, places, region⟩ := ih
      refine ⟨step.closed closed, ?_⟩
      cases step with
      | other same => exact ⟨places, by rwa [same]⟩
      | load t => exact ⟨places, region.fresh (load_fresh t reader _).old (load_fresh t reader _).larger⟩
      | force id => exact force_region reader closed region id
  exact both.2

/-! ### Ways down -/

def Store.OwnedBy (store : Store) (a b : Nat) : Prop := store.owner a = .construct b

/-- The construct at a place below a slot, and whether each construct on the way to it owns the part
that is entered. The part for bodies is entered in some operators only. -/
def Store.wayDown (store : Store) (operators : List Nat) : List Nat → Slot → Bool → Option (Nat × Bool)
  | [], .ref id, owned => (store.form? (.ref id)).map fun _ => (id, owned)
  | i :: rest, .ref id, owned =>
    match store.cell? id with
    | some (.list items) => items[i]?.bind fun slot => store.wayDown operators rest slot owned
    | some (.node form slots _) =>
      if i = Operator.bodyIndex ∧ id ∉ operators then none
      else slots[i]?.bind fun slot => store.wayDown operators rest slot (owned && form.owns i)
    | none => none
  | _, _, _ => none

theorem leads_iff_of_owner (owner : store.owner c = .construct a) (other : c ≠ m) :
    ReflTransGen store.OwnedBy c m ↔ ReflTransGen store.OwnedBy a m := by
  constructor
  · intro leads
    rcases leads.cases_head with same | ⟨next, first, rest⟩
    · exact absurd same other
    · cases owner.symm.trans first
      exact rest
  · intro leads
    exact .head owner leads

theorem not_leads_of_vacant (vacant : (store.owner c).isVacant = true) (other : c ≠ m) :
    ¬ ReflTransGen store.OwnedBy c m := by
  intro leads
  rcases leads.cases_head with same | ⟨next, first, -⟩
  · exact other same
  · rw [show store.owner c = .construct next from first] at vacant
    cases vacant

/-- A body that is computed belongs to its operator. -/
def Store.KeepsBody (store : Store) (operator : Nat) : Prop :=
  store.form? (.ref operator) = some (.decl .operator) ∧
    ∀ slot, store.body? operator = some slot → ∀ c, store.Stands slot c →
      store.owner c = .construct operator

theorem Store.Region.step (region : store.Region m places) (inside : places a)
    (found : store.cell? a = some (.node form slots owner)) (at' : slots[i]? = some slot)
    (body : i = Operator.bodyIndex → store.KeepsBody a) (stands : store.Stands slot c) :
    ReflTransGen store.OwnedBy c m ↔ ReflTransGen store.OwnedBy a m ∧ form.owns i = true := by
  have other : c ≠ m := by
    rintro rfl
    exact region.alone inside found slot (List.mem_of_getElem? at') stands
  by_cases isBody : i = Operator.bodyIndex
  · obtain ⟨isOperator, owned⟩ := body isBody
    subst isBody
    have same : form = .decl .operator := by simpa [Store.form?, found] using isOperator
    subst same
    rw [leads_iff_of_owner (owned slot ((Store.body?_eq found).trans at') c stands) other]
    exact (and_iff_left rfl).symm
  · have tidy := region.tidy a inside found isBody at' stands
    split at tidy
    · rename_i owns
      rw [leads_iff_of_owner tidy other]
      exact (and_iff_left owns).symm
    · rename_i disowns
      exact iff_of_false (not_leads_of_vacant tidy other) fun both => disowns both.2

/-- Owners lead to the module from the end of a way down if each construct on it owns the part that
is entered. -/
theorem Store.Region.way (region : store.Region m places) {operators : List Nat}
    (bodies : ∀ operator ∈ operators, store.KeepsBody operator) (place : List Nat) {owned owned' : Bool}
    (into : slot.Into places)
    (leads : ∀ a, store.Stands slot a → (ReflTransGen store.OwnedBy a m ↔ owned = true))
    (way : store.wayDown operators place slot owned = some (c, owned')) :
    ReflTransGen store.OwnedBy c m ↔ owned' = true := by
  induction place generalizing slot owned with
  | nil =>
    cases slot with
    | ref id =>
      obtain ⟨form, isConstruct, same⟩ := Option.map_eq_some_iff.mp way
      cases same
      obtain ⟨slots, owner, found⟩ := Store.form?_ref isConstruct
      exact leads _ (.construct (Store.kind_of_cell found))
    | atom => cases way
    | delayed => cases way
  | cons i rest ih =>
    cases slot with
    | ref id =>
      have inside := into id rfl
      rw [Store.wayDown] at way
      split at way
      · rename_i items found
        obtain ⟨item, at', way⟩ := Option.bind_eq_some_iff.mp way
        have member := List.mem_of_getElem? at'
        refine ih ?_ (fun a stands => leads a (.member (Store.kind_of_cell found) member stands)) way
        rintro other rfl
        exact region.closes inside found other member
      · rename_i form slots owner found
        split at way
        · cases way
        · rename_i entered
          obtain ⟨part, at', way⟩ := Option.bind_eq_some_iff.mp way
          have body : i = Operator.bodyIndex → store.KeepsBody id :=
            fun same => bodies id (by_contra fun other => entered ⟨same, other⟩)
          refine ih ?_ (fun a stands => ?_) way
          · rintro other rfl
            exact region.closes inside found other (List.mem_of_getElem? at')
          · have here := leads id (.construct (Store.kind_of_cell found))
            rw [region.step inside found at' body stands, here, Bool.and_eq_true]
      · cases way
    | atom => cases way
    | delayed => cases way

/-! ### Modules -/

theorem Term.Names.construct {form : DeclForm} (names : t.Names form) :
    ∃ form parts, t = .node form parts := by
  cases names
  exact ⟨_, _, rfl⟩

theorem Term.Declares.construct (declares : t.Declares) : ∃ form parts, t = .node form parts := by
  cases declares with
  | block => exact ⟨_, _, rfl⟩
  | signature names => exact names.construct
  | operator names => exact names.construct
  | verbatim => exact ⟨_, _, rfl⟩
  | use => exact ⟨_, _, rfl⟩

theorem Laid.blockMembers_owned {low high : Nat} (laid : Laid store t (.ref id) low high)
    (declares : t.Declares) {part : Slot} (inside : part ∈ store.blockMembers (.ref id)) :
    ∃ d, part = .ref d ∧ store.OwnedBy d id := by
  have none {form : Form} (shape : store.form? (.ref id) = some form)
      (other : ∀ f, form = .module f → f.isBlock = false) : False := by
    cases form <;> simp_all [Store.blockMembers]
  cases declares with
  | block isBlock named =>
    obtain ⟨⟨_, members⟩, owned⟩ := laid.block_members isBlock
    obtain ⟨item, present, _, _, -, -, inner⟩ := members.mem inside
    obtain ⟨_, _, rfl⟩ := (named item present).construct
    obtain ⟨d, rfl, -⟩ := inner.ref_of_node
    exact ⟨d, rfl, owned d inside⟩
  | signature names =>
    cases names
    obtain ⟨_, -, shape⟩ := laid.ref_of_node
    exact (none shape fun _ same => by cases same).elim
  | operator names =>
    cases names
    obtain ⟨_, -, shape⟩ := laid.ref_of_node
    exact (none shape fun _ same => by cases same).elim
  | verbatim =>
    obtain ⟨_, -, shape⟩ := laid.ref_of_node
    exact (none shape fun _ same => by cases same; rfl).elim
  | use =>
    obtain ⟨_, -, shape⟩ := laid.ref_of_node
    exact (none shape fun _ same => by cases same; rfl).elim

/-- What a module declares belongs to the module or to a block that does. -/
theorem Laid.declared_owned {kind : ModuleKind} {name : Term} {uses others : List Term} {low high : Nat}
    (laid : Laid store (.node (.module kind.form) [name, .list uses, .list others]) (.ref m) low high)
    (declares : ∀ d ∈ uses ++ others, d.Declares) {part : Slot}
    (inside : part ∈ store.declared (.ref m)) :
    ∃ d, part = .ref d ∧ (store.OwnedBy d m ∨ ∃ block, store.OwnedBy d block ∧
      store.OwnedBy block m) := by
  obtain ⟨used, declared, usedAt, declaredAt, ⟨_, _, first⟩, ⟨_, _, second⟩, owned⟩ :=
    laid.module_members
  have direct (part : Slot) (inside : part ∈ store.listed used ++ store.listed declared) :
      ∃ d ∈ uses ++ others, ∃ id low high, part = .ref id ∧ Laid store d part low high := by
    have found : ∃ d ∈ uses ++ others, ∃ low high, Laid store d part low high := by
      rcases List.mem_append.mp inside with inside | inside
      · obtain ⟨d, present, low, high, -, -, laid⟩ := first.mem inside
        exact ⟨d, List.mem_append_left _ present, low, high, laid⟩
      · obtain ⟨d, present, low, high, -, -, laid⟩ := second.mem inside
        exact ⟨d, List.mem_append_right _ present, low, high, laid⟩
    obtain ⟨d, present, low, high, laid⟩ := found
    obtain ⟨_, _, rfl⟩ := (declares d present).construct
    obtain ⟨id, same, -⟩ := laid.ref_of_node
    exact ⟨_, present, id, low, high, same, laid⟩
  simp only [Store.declared, Store.declarations, usedAt, declaredAt, Option.getD_some] at inside
  rcases List.mem_append.mp inside with inside | inside
  · obtain ⟨_, -, id, _, _, rfl, -⟩ := direct part inside
    exact ⟨id, rfl, .inl (owned id inside)⟩
  · obtain ⟨block, present, inside⟩ := List.mem_flatMap.mp inside
    obtain ⟨d, listed, id, _, _, rfl, laid⟩ := direct block present
    obtain ⟨member, rfl, belongs⟩ := laid.blockMembers_owned (declares d listed) inside
    exact ⟨member, rfl, .inr ⟨id, belongs, owned id present⟩⟩

/-- A construct that is loaded is the top of the new cells, and they are tidy. -/
theorem load_region {parts : List Term} (closed : w.store.ClosedFrom 0)
    (loaded : perform (load (.node form parts)) reader w = (.ok slot, w')) :
    ∃ m, slot = .ref m ∧ w'.store.Region m fun id => w.store.cells.size ≤ id ∧
      id < w'.store.cells.size := by
  have stacked := load_stacked (.node form parts) w (stacked_empty closed) loaded
  rw [List.nil_append] at stacked
  obtain ⟨fresh, within⟩ :=
    load_builds (.node form parts) reader w (Nat.le_refl _) w.store.closedFrom_size
  rw [loaded] at fresh within
  have held := (load_laid _ w loaded).held
  cases held with
  | plain plain => cases plain
  | @node m _ _ _ _ found _ =>
    refine ⟨m, rfl, within _ rfl, fun id inside => inside.2, ?_, ?_,
      fun a inside => stacked.tidy a inside.1⟩
    · intro id cell inside found other member
      exact fresh.closed w.store.closedFrom_size inside.1 found (.ref other) member
    · intro a form parts owner inside present part member
      exact stacked.free _ List.mem_cons_self m (.construct (Store.kind_of_cell found)) inside.1
        present part member

/-- A module that is converted holds operators only that wait for their bodies. -/
theorem convertModule_parsed {kind : ModuleKind} {name : String} {s s' : Reading}
    (converted : perform (convertModule kind.form name tree) reader s = (.ok t, s')) : t.Parsed := by
  obtain ⟨id, uses, others, levels, rfl, -, declared⟩ := convertModule_ok converted
  refine .module fun d member => ?_
  obtain ⟨tree, _, _, found⟩ := declared d (List.mem_append_right uses member)
  exact (declaration_delays (convertUpTo_delays levels) tree).result found

theorem Store.Waits.keepsBody (waits : store.Waits operator tree)
    (settle : CellsSettle reader store store') : store'.KeepsBody operator := by
  rcases waits.later settle with waits | ⟨t, body, -, has⟩
  · refine ⟨waits.form, fun slot found c stands => ?_⟩
    cases waits.body.symm.trans found
    cases stands
  · refine ⟨has.form, fun slot found c stands => ?_⟩
    cases has.body.symm.trans found
    rcases has.isBody.owned with rfl | ⟨id, rfl, owned⟩
    · cases stands
    · have kind : store'.kind id = some none := by
        unfold Store.owner at owned
        split at owned
        · rename_i cell
          exact Store.kind_of_cell cell
        · cases owned
      rwa [stands.eq kind]

/-- However a module is used, its declarations belong to it. A construct inside it belongs to it,
through owners, exactly if every construct on the way down owns the part that is entered. -/
theorem owners_lead_to_module_iff (reader : Reader) (kind : ModuleKind) (name : String)
    (tree : ParseTree) {w w' : Workspace} (closed : w.store.ClosedFrom 0) {slot : Slot}
    (built : perform (do load (← ofConversion (convertModule kind.form name tree))) reader w =
      (.ok slot, w'))
    (accesses : List Access) :
    ∃ m, slot = .ref m ∧ w'.store.form? slot = some (.module kind.form) ∧
      (∀ part ∈ w'.store.declared slot, ∃ d, part = .ref d ∧
        ReflTransGen (w'.after reader accesses).store.OwnedBy d m) ∧
      ∀ place c owned,
        (w'.after reader accesses).store.wayDown (w'.store.operators slot) place slot true =
          some (c, owned) →
        (ReflTransGen (w'.after reader accesses).store.OwnedBy c m ↔ owned = true) := by
  obtain ⟨t, w₁, converted, loaded⟩ := bind_ok built
  rw [perform_ofConversion] at converted
  obtain ⟨given, read⟩ := Prod.mk.inj converted
  have closed₁ : w₁.store.ClosedFrom 0 := by
    rw [← read]
    exact closed
  have parsed := convertModule_parsed (Prod.ext given rfl)
  obtain ⟨first, uses, others, rfl, -, declares⟩ := convertModule_declares (Prod.ext given rfl)
  have laid := load_laid _ _ loaded
  obtain ⟨m, rfl, region⟩ := load_region closed₁ loaded
  obtain ⟨_, -, shape⟩ := laid.ref_of_node
  have settled : Settling reader w₁ w' := Keeps.after loaded
  have settles := settles_after reader (settled closed₁).closed accesses
  obtain ⟨places, region⟩ := (working_after reader w' accesses).region (settled closed₁).closed region
  refine ⟨m, rfl, shape, fun part inside => ?_, fun place c owned way => ?_⟩
  · obtain ⟨d, rfl, belongs | ⟨block, belongs, block_belongs⟩⟩ := laid.declared_owned declares inside
    · exact ⟨d, rfl, .single (settles.cells.owned belongs)⟩
    · exact ⟨d, rfl, .head (settles.cells.owned belongs) (.single (settles.cells.owned block_belongs))⟩
  · refine region.way (fun operator declared => ?_) place (fun id same => ?_) (fun a stands => ?_) way
    · obtain ⟨tree, waits⟩ := operators_wait laid.held parsed declared
      exact waits.keepsBody settles.cells
    · cases same
      exact region.top
    · obtain ⟨_, _, found⟩ := Store.form?_ref shape
      obtain ⟨_, _, found', -⟩ := settles.cells.refines.nodes found
      rw [stands.eq (Store.kind_of_cell found')]
      exact iff_of_true .refl rfl

def declaredOperator (body : ParseTree) : ParseTree :=
  .node (some "DOperator") [.node none [] [("OpNode", .truth false), ("OpId", .located (.text "f")),
    ("OpInputs", .list []), ("OpOutputs", .list []), ("OpSizes", .list []), ("OpConstraints", .list []),
    ("OpSpecialization", .absent), ("OpPragmas", .list []), ("OpBody", body)]] []

def variablesTree : ParseTree :=
  .node (some "SVarList")
    [.list [.node (some "RawVar") [.protectedText (.text "?") (.text "var")] []]] []

def twoBodies : ParseTree :=
  let scope : ParseTree := .node (some "SDSections") [.list [variablesTree], .absent] []
  let state : ParseTree := .node none [] [("StateId", .identification (.text "S") .absent),
    ("UntilTransitions", .list []), ("UnlessTransitions", .list []), ("StateIsInitial", .truth true),
    ("StateBody", .node none [.list [variablesTree], .absent] [])]
  let machine : ParseTree := .node (some "AutomatonEquation") [.node (some "LhsEmpty") [] [],
    .node none [.absent, .list [.node (some "StateItem") [state] []]] []] []
  .node none [] [("MDecls",
    .list [declaredOperator scope, declaredOperator (.node (some "SDEquation") [machine] [])])]

theorem owners_lead_to_module_from_state :
    ∃ w, perform (do load (← ofConversion (convertModule (ModuleKind.body).form "M" twoBodies)))
        Reader.none {} = (.ok (.ref 22), w) ∧ w.store.operators (.ref 22) = [12, 20] ∧
      ReflTransGen (w.after Reader.none [.property "body" 12, .property "body" 20]).store.OwnedBy 34 22 ∧
      ¬ ReflTransGen (w.after Reader.none [.property "body" 12, .property "body" 20]).store.OwnedBy
        23 22 := by
  have built : perform
      (do load (← ofConversion (convertModule (ModuleKind.body).form "M" twoBodies))) Reader.none
        {} = (.ok (.ref 22), _) := placeOf_eq (by decide +kernel)
  have closed : Store.ClosedFrom 0 {} := by
    intro id cell _ found
    cases found
  obtain ⟨m, same, -, -, leads⟩ := owners_lead_to_module_iff Reader.none .body "M" twoBodies closed built
    [.property "body" 12, .property "body" 20]
  cases same
  refine ⟨_, built, by decide +kernel, ?_, ?_⟩
  · exact (leads [2, 1, 4, 1, 0, 2, 0, 0, 0] 34 true (by decide +kernel)).mpr rfl
  · intro absurd
    cases (leads [2, 0, 4, 0, 0, 0, 0] 23 false (by decide +kernel)).mp absurd

/-- A section in the scope of an operator has no owner, though the body was read. -/
theorem section_of_scope_does_not_lead_to_module :
    ∃ w, perform (do load (← ofConversion (convertModule (ModuleKind.body).form "M" twoBodies)))
        Reader.none {} = (.ok (.ref 22), w) ∧ w.store.operators (.ref 22) = [12, 20] ∧
      (w.after Reader.none [.property "body" 12, .property "body" 20]).store.wayDown [12, 20]
        [2, 0, 4, 0, 0] (.ref 22) true = some (25, false) ∧
      (w.after Reader.none [.property "body" 12, .property "body" 20]).store.form? (.ref 25) =
        some (.scope .variables) ∧
      ¬ ReflTransGen (w.after Reader.none [.property "body" 12, .property "body" 20]).store.OwnedBy
        25 22 := by
  refine ⟨_, placeOf_eq (by decide +kernel), by decide +kernel, by decide +kernel, by decide +kernel, ?_⟩
  exact not_leads_of_vacant (by decide +kernel) (by decide)

end SwanModel
