import SwanModel.Proofs.Store.Held

/-!
# Loading terms

`Work.load` succeeds exactly on the terms whose constructs can adopt what they have to adopt.
-/

namespace SwanModel

open Work

variable {slots : List Slot} {parts : List Term} {t : Term} {slot : Slot}

def Adoption.isAllowed (parts : List Term) (adoption : Adoption) : Bool :=
  (adoption.check parts parts).isOk

mutual

/-- Whether every construct in a term can adopt what it has to adopt. -/
def Term.isLoadable : Term → Bool
  | .list items => areLoadable items
  | .node form parts => areLoadable parts && form.adoptions.all (Adoption.isAllowed parts)
  | _ => true

def Term.areLoadable : List Term → Bool
  | [] => true
  | t :: rest => t.isLoadable && areLoadable rest

end

variable {α : Type} {reader : Reader} {w : Workspace}

@[simp] theorem perform_store : perform Work.store reader w = (.ok w.store, w) := rfl

@[simp] theorem perform_modifyStore (f : Store → Store) :
    perform (modifyStore f) reader w = (.ok (), { w with store := f w.store }) := rfl

@[simp] theorem perform_ofExcept_ok (a : α) :
    perform (Work.ofExcept (.ok a)) reader w = (.ok a, w) := rfl

@[simp] theorem perform_ofExcept_error (e : Error) :
    perform (Work.ofExcept (.error e) : Work α) reader w = (.error e, w) := rfl

@[simp] theorem perform_add (cell : Cell) :
    perform (add cell) reader w =
      (.ok (.ref w.store.cells.size), { w with store := (w.store.add cell).2 }) := rfl

/-! ### Adoption -/

theorem adopt_spec (held : Held .none w.store t slot) (owner : Nat) :
    SucceedsIff (adopt (.ref owner) slot) reader w (t.isAdoptable = true)
      fun _ w' => Grows 0 w.store w'.store := by
  cases held with
  | plain plain =>
    cases adoptable : t.isAdoptable with
    | true => simp [SucceedsIff, adopt, adoptable, Grows.refl]
    | false => simp [SucceedsIff, adopt, adoptable]
  | list cell members => simp [SucceedsIff, adopt, perform_bind, cell, Term.isAdoptable]
  | node cell members =>
    simp only [SucceedsIff, adopt, perform_bind, perform_store, cell, perform_modifyStore,
      Term.isAdoptable, true_and]
    exact grows_set _ cell
  | delayed tree => simp [SucceedsIff, adopt, Term.isAdoptable]
  | computed stands held => exact stands.elim

theorem adoptAll_spec {ts : List Term} (held : HeldAll .none w.store ts slots) (owner : Nat) :
    SucceedsIff (slots.forM (adopt (.ref owner))) reader w (∀ t ∈ ts, t.isAdoptable = true)
      fun _ w' => Grows 0 w.store w'.store := by
  induction ts generalizing slots w with
  | nil =>
    cases held
    exact (SucceedsIff.pure PUnit.unit (Grows.refl w.store)).congr (by simp)
  | cons t ts ih =>
    cases held with
    | cons head tail =>
      simp only [List.forall_mem_cons]
      refine (adopt_spec head owner).bind fun _ w₁ first => ?_
      exact (ih (tail.mono first.refines)).weaken fun _ _ rest => first.trans rest

theorem members_held {store : Store} (held : Held .none store t slot) :
    (∃ ts slots, t.members = .ok ts ∧ store.members slot = .ok slots ∧ HeldAll .none store ts slots) ∨
      (t.members = .error .wrongKind ∧ store.members slot = .error .wrongKind) := by
  cases held with
  | plain plain =>
    cases t with
    | text s =>
      refine .inl ⟨_, _, rfl, rfl, ?_⟩
      induction s.toList with
      | nil => exact .nil
      | cons c rest ih => exact .cons (.plain rfl) ih
    | list => cases plain
    | node => cases plain
    | raw => cases plain
    | _ => exact .inr ⟨rfl, rfl⟩
  | list cell members => exact .inl ⟨_, _, rfl, by simp [Store.members, cell], members⟩
  | node cell members => exact .inr ⟨rfl, by simp [Store.members, cell]⟩
  | delayed tree => exact .inr ⟨rfl, rfl⟩
  | computed stands held => exact stands.elim

theorem getD_held {store : Store} (held : HeldAll .none store parts slots)
    (i : Nat) : Held .none store (partAt parts i) (slots.getD i default) := by
  induction parts generalizing slots i with
  | nil => cases held; exact .plain rfl
  | cons t parts ih =>
    cases held with
    | cons head tail =>
      cases i with
      | zero => exact head
      | succ i => exact ih tail i

theorem isOk_iff {x : Except Error Unit} : x.isOk = true ↔ x = .ok () := by
  cases x <;> simp [Except.isOk, Except.toBool]

theorem forM_eq_ok {check : α → Except Error Unit} {as : List α} :
    as.forM check = .ok () ↔ ∀ a ∈ as, check a = .ok () := by
  induction as with
  | nil => simp [List.forM, pure, Except.pure]
  | cons a as ih =>
    rw [List.forall_mem_cons, ← ih]
    change (do check a; as.forM check) = _ ↔ _
    cases first : check a with
    | error e => simp [bind, Except.bind]
    | ok => simp [bind, Except.bind]

theorem forM_checkAdoptable (ts : List Term) :
    (ts.forM checkAdoptable).isOk = true ↔ ∀ t ∈ ts, t.isAdoptable = true := by
  rw [isOk_iff, forM_eq_ok]
  simp [checkAdoptable]

/-- The members of a thing are adopted exactly when the check of its members succeeds. -/
theorem adoptMembers_spec (held : Held .none w.store t slot) (owner : Nat) :
    SucceedsIff (do (← Work.ofExcept ((← Work.store).members slot)).forM (adopt (.ref owner))) reader w
      ((do (← t.members).forM checkAdoptable : Except Error Unit).isOk = true)
      fun _ w' => Grows 0 w.store w'.store := by
  rcases members_held held with ⟨ts, slots, members, stored, all⟩ | ⟨members, stored⟩
  · rw [SucceedsIff, perform_bind, perform_store]
    simp only [stored, perform_bind, perform_ofExcept_ok, members]
    exact (adoptAll_spec all owner).congr (forM_checkAdoptable ts).symm
  · rw [SucceedsIff, perform_bind, perform_store]
    simp only [stored, perform_bind, perform_ofExcept_error, members]
    simp [bind, Except.bind, Except.isOk, Except.toBool]

theorem carryOut_spec (held : HeldAll .none w.store parts slots) (owner : Nat)
    (adoption : Adoption) :
    SucceedsIff (carryOut (.ref owner) slots slots adoption) reader w (adoption.isAllowed parts = true)
      fun _ w' => Grows 0 w.store w'.store := by
  cases adoption with
  | argument i =>
    refine (adopt_spec (getD_held held i) owner).congr ?_
    cases adoptable : (partAt parts i).isAdoptable <;>
      simp [Adoption.isAllowed, Adoption.check, checkAdoptable, adoptable, Except.isOk, Except.toBool]
  | argumentMembers i => exact adoptMembers_spec (getD_held held i) owner
  | partMembers i => exact adoptMembers_spec (getD_held held i) owner

theorem carryOutAll_spec (held : HeldAll .none w.store parts slots)
    (owner : Nat) (adoptions : List Adoption) :
    SucceedsIff (adoptions.forM (carryOut (.ref owner) slots slots)) reader w
      (adoptions.all (Adoption.isAllowed parts) = true) fun _ w' => Grows 0 w.store w'.store := by
  induction adoptions generalizing w with
  | nil => exact (SucceedsIff.pure PUnit.unit (Grows.refl w.store)).congr (by simp)
  | cons adoption rest ih =>
    simp only [List.all_cons, Bool.and_eq_true]
    refine (carryOut_spec held owner adoption).bind fun _ w₁ first => ?_
    exact (ih (held.mono first.refines)).weaken fun _ _ second => first.trans second

/-! ### Loading -/

/-- A store holds a term at a slot, in cells from `base` on, and so does every store that it grows
into. -/
def Lasts (base : Nat) (store : Store) (t : Term) (slot : Slot) : Prop :=
  ∀ {later}, Grows base store later → Held .none later t slot

def LastsAll (base : Nat) (store : Store) (ts : List Term) (slots : List Slot) : Prop :=
  ∀ {later}, Grows base store later → HeldAll .none later ts slots

theorem add_lasts {base : Nat} (low : base ≤ w.store.cells.size) {items : List Term}
    (held : LastsAll base w.store items slots) :
    Lasts base (w.store.add (.list slots)).2 (.list items) (.ref w.store.cells.size) := by
  intro later grows
  have added : Grows 0 w.store (w.store.add (.list slots)).2 := grows_add _
  exact .list (grows.lists low (Store.cell?_add w.store _))
    (held ((added.raise (Nat.zero_le _)).trans grows))

theorem addNode_spec {base : Nat} (low : base ≤ w.store.cells.size) (form : Form)
    (held : LastsAll base w.store parts slots) :
    SucceedsIff (addNode form slots slots) reader w
      (form.adoptions.all (Adoption.isAllowed parts) = true) fun slot w' =>
        Lasts base w'.store (.node form parts) slot ∧ Grows 0 w.store w'.store := by
  let cell := Cell.node form slots (if form.startsUnowned then Owner.none else .unset)
  have added : Grows 0 w.store (w.store.add cell).2 := grows_add cell
  have others := held (added.raise (Nat.zero_le base))
  refine .after (perform_add cell) ((carryOutAll_spec others _ form.adoptions).map ?_)
  intro _ w' adopted
  refine ⟨fun grows => ?_, added.trans adopted⟩
  obtain ⟨_, new⟩ := adopted.nodes (Nat.zero_le _) (Store.cell?_add w.store cell)
  obtain ⟨_, new⟩ := grows.nodes low new
  exact .node new (held (((added.trans adopted).raise (Nat.zero_le base)).trans grows))

mutual

/-- A term is loaded exactly if it is loadable, and the store then holds it in new cells. -/
theorem load_spec (t : Term) (reader : Reader) (w : Workspace) :
    SucceedsIff (load t) reader w (t.isLoadable = true)
      fun slot w' => Lasts w.store.cells.size w'.store t slot ∧ Grows 0 w.store w'.store := by
  cases t with
  | list items =>
    refine ((loadAll_spec items reader w).bind fun slots w₁ ⟨held, first⟩ =>
      ?_).congr (and_iff_left trivial)
    exact ⟨trivial, add_lasts first.size_le held, first.trans (grows_add _)⟩
  | node form parts =>
    rw [Term.isLoadable, Bool.and_eq_true]
    refine (loadAll_spec parts reader w).bind fun slots w₁ ⟨held, first⟩ => ?_
    exact (addNode_spec first.size_le form held).weaken fun _ _ ⟨new, second⟩ =>
      ⟨new, first.trans second⟩
  | raw tree => exact ⟨rfl, fun _ => .delayed tree, .refl _⟩
  | _ => exact ⟨rfl, fun _ => .plain rfl, .refl _⟩

theorem loadAll_spec (ts : List Term) (reader : Reader) (w : Workspace) :
    SucceedsIff (loadAll ts) reader w (Term.areLoadable ts = true)
      fun slots w' => LastsAll w.store.cells.size w'.store ts slots ∧ Grows 0 w.store w'.store := by
  cases ts with
  | nil => exact ⟨rfl, fun _ => .nil, .refl _⟩
  | cons t rest =>
    rw [Term.areLoadable, Bool.and_eq_true]
    refine (load_spec t reader w).bind fun slot w₁ ⟨held, first⟩ => (loadAll_spec rest reader w₁).map ?_
    intro slots w₂ ⟨others, second⟩
    refine ⟨fun grows => .cons (held ?_) (others (grows.raise first.size_le)), first.trans second⟩
    exact (second.raise (Nat.zero_le _)).trans grows

end

end SwanModel
