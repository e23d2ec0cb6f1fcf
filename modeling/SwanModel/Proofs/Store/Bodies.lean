import SwanModel.Proofs.Store.Load

/-!
# Bodies that are computed when they are needed

A question about a store may compute bodies of operators; each body is then held in the place of its
tree, and nothing else changes.
-/

namespace SwanModel

open Work

variable {reader : Reader} {w w' : Workspace} {slot : Slot}

variable {α : Type}

def Growing (_ : Reader) (w w' : Workspace) : Prop := Grows 0 w.store w'.store

instance : Lasting Growing where
  refl _ w := .refl w.store
  trans first second := Grows.trans first second

/-- What converting the body of an operator from its tree gives. -/
def BodyOf (reader : Reader) : Bodies := fun tree t =>
  ∃ s s', perform (convert .operatorBody tree) reader s = (.ok t, s')

/-- The store is refined by bodies that the reader gives. -/
def Refining (reader : Reader) (w w' : Workspace) : Prop := Refines (BodyOf reader) w.store w'.store

instance : Lasting Refining where
  refl _ w := .refl w.store
  trans first second := Refines.trans first second

theorem refining_of_growing {x : Work α} (growing : Keeps Growing x) : Keeps Refining x :=
  ⟨fun reader w => (growing.keeps reader w).refines⟩

/-! ### Loading and building -/

section
variable {R : Reader → Workspace → Workspace → Prop} [Lasting R]

instance : Keeps R Work.store := ⟨Lasting.refl⟩

instance (x : Except Error α) : Keeps R (Work.ofExcept x) := by
  cases x with
  | ok a => exact inferInstanceAs (Keeps R (pure a : Work α))
  | error e => exact inferInstanceAs (Keeps R (throw e : Work α))

end

theorem perform_ofConversion (c : Conversion α) (reader : Reader) (w : Workspace) :
    perform (ofConversion c) reader w =
      ((perform c reader w.reading).1, { w with reading := (perform c reader w.reading).2 }) := by
  have ran : (c reader).run w.reading = perform c reader w.reading := rfl
  simp only [ofConversion, perform_bind, perform_read, perform_get, ran]
  rcases perform c reader w.reading with ⟨_ | _, _⟩ <;> rfl

instance (c : Conversion α) : Keeps Growing (ofConversion c) where
  keeps reader w := by
    rw [perform_ofConversion]
    exact .refl w.store

instance (cell : Cell) : Keeps Growing (add cell) := ⟨fun _ _ => grows_add cell⟩

instance (owner slot : Slot) : Keeps Growing (adopt owner slot) where
  keeps reader w := by
    unfold adopt
    split
    · rw [perform_bind, perform_store]
      dsimp only
      split
      · rename_i found
        exact grows_set _ found
      · exact .refl w.store
    · split
      · exact .refl w.store
      · exact .refl w.store
    · exact .refl w.store

instance (new : Slot) (args slots : List Slot) (adoption : Adoption) :
    Keeps Growing (carryOut new args slots adoption) := by
  cases adoption <;> unfold carryOut <;> infer_instance

instance (form : Form) (args slots : List Slot) : Keeps Growing (addNode form args slots) := by
  unfold addNode; infer_instance

mutual

theorem load_growing (t : Term) : Keeps Growing (load t) := by
  cases t with
  | list items =>
    have := loadAll_growing items
    rw [load]; infer_instance
  | node form parts =>
    have := loadAll_growing parts
    rw [load]; infer_instance
  | _ => rw [load]; infer_instance

theorem loadAll_growing (ts : List Term) : Keeps Growing (loadAll ts) := by
  cases ts with
  | nil => rw [loadAll]; infer_instance
  | cons t rest =>
    have := load_growing t
    have := loadAll_growing rest
    rw [loadAll]; infer_instance

end

instance (t : Term) : Keeps Growing (load t) := load_growing t

instance (args : List Slot) (filling : Filling) : Keeps Growing (fill args filling) := by
  cases filling <;> rw [fill] <;> infer_instance

instance (form : Form) (args : List Slot) : Keeps Growing (construct form args) := by
  unfold construct; infer_instance

instance (kind : Buildable) (args : List (String × Slot)) : Keeps Growing (buildFrom kind args) := by
  cases kind with
  | form form => unfold buildFrom; infer_instance
  | pragma =>
    unfold buildFrom
    refine Keeps.bind inferInstance fun slots => ?_
    split <;> infer_instance

mutual

theorem build_growing (b : Blueprint) : Keeps Growing (build b) := by
  cases b with
  | list items =>
    have := buildAll_growing items
    rw [build]; infer_instance
  | construct name args =>
    have := buildArgs_growing args
    rw [build]
    split <;> infer_instance
  | ref name =>
    rw [build]
    refine Keeps.bind inferInstance fun w => ?_
    split <;> infer_instance
  | _ => rw [build]; infer_instance

theorem buildAll_growing (bs : List Blueprint) : Keeps Growing (buildAll bs) := by
  cases bs with
  | nil => rw [buildAll]; infer_instance
  | cons b rest =>
    have := build_growing b
    have := buildAll_growing rest
    rw [buildAll]; infer_instance

theorem buildArgs_growing (args : List (String × Blueprint)) : Keeps Growing (buildArgs args) := by
  cases args with
  | nil => rw [buildArgs]; infer_instance
  | cons arg rest =>
    have := build_growing arg.2
    have := buildArgs_growing rest
    rw [buildArgs]; infer_instance

end

instance (operator : Nat) (d : Delayed) : Keeps Growing (compute operator d) := by
  cases d with
  | tree tree =>
    unfold compute
    refine Keeps.bind inferInstance fun t => Keeps.bind inferInstance fun slot => ?_
    split <;> infer_instance
  | plan b => exact build_growing b

/-! ### Computing a body -/

theorem perform_of_ofConversion {c : Conversion α} {a : α}
    (ran : perform (ofConversion c) reader w = (.ok a, w')) :
    ∃ s, perform c reader w.reading = (.ok a, s) ∧ w' = { w with reading := s } := by
  rw [perform_ofConversion] at ran
  obtain ⟨result, rfl⟩ := Prod.mk.inj ran
  exact ⟨_, Prod.ext result rfl, rfl⟩

theorem converted_held {c : Conversion Term}
    (ran : perform (do load (← ofConversion c)) reader w = (.ok slot, w')) :
    ∃ t s, perform c reader w.reading = (.ok t, s) ∧ Held .none w'.store t slot := by
  obtain ⟨t, w₁, started, loaded⟩ := bind_ok ran
  obtain ⟨s, converted, rfl⟩ := perform_of_ofConversion started
  obtain ⟨-, lasts, -⟩ := (load_spec t reader _).of_ok loaded
  exact ⟨t, s, converted, lasts (.refl _)⟩

/-- A body that is converted is held in new cells. -/
theorem compute_tree {operator : Nat} {tree : ParseTree}
    (h : perform (compute operator (.tree tree)) reader w = (.ok slot, w')) :
    ∃ t, BodyOf reader tree t ∧ Lasts w.store.cells.size w'.store t slot := by
  unfold compute at h
  obtain ⟨t, w₁, started, h⟩ := bind_ok h
  obtain ⟨s, converted, rfl⟩ := perform_of_ofConversion started
  obtain ⟨new, w₂, loaded, h⟩ := bind_ok h
  obtain ⟨-, lasts, -⟩ := (load_spec t reader _).of_ok loaded
  refine ⟨t, ⟨w.reading, s, converted⟩, ?_⟩
  split at h
  · obtain ⟨_, w₃, adopted, h⟩ := bind_ok h
    cases h
    have owned : Growing reader w₂ _ := Keeps.after adopted
    intro later grows
    exact lasts ((Grows.raise owned (Nat.zero_le _)).trans grows)
  · cases h
    exact lasts

theorem slots_set {body : Bodies} {store : Store} {slots : List Slot} {i : Nat} {slot' : Slot}
    (found : slots[i]? = some slot) (changed : SlotRefines body store slot slot') :
    List.Forall₂ (SlotRefines body store) slots (slots.set i slot') := by
  induction slots generalizing i with
  | nil => exact .nil
  | cons first rest ih =>
    cases i with
    | zero =>
      obtain rfl : first = slot := by simpa using found
      exact .cons changed (slots_same rest)
    | succ i => exact .cons (.same first) (ih (by simpa using found))

theorem set_body {operator : Nat} {form : Form} {slots : List Slot} {owner : Owner} {d : Delayed}
    (found : w.store.cell? operator = some (.node form slots owner))
    (delayed : slots[Operator.bodyIndex]? = some (.delayed d))
    (computed : perform (compute operator d) reader w = (.ok slot, w')) {owner' : Owner}
    (kept : w'.store.cell? operator = some (.node form slots owner')) :
    Refines (BodyOf reader) w'.store
      (w'.store.set operator (.node form (slots.set Operator.bodyIndex slot) owner')) := by
  refine refines_set kept (slots_set delayed ?_)
  cases d with
  | tree tree =>
    obtain ⟨t, stands, lasts⟩ := compute_tree computed
    exact .tree stands (lasts (grows_set_below (Store.lt_of_cell? found) _)).of_none
  | plan b => exact .plan b slot

instance (operator : Nat) : Keeps Refining (force operator) where
  keeps reader w := by
    unfold force
    rw [perform_bind, perform_store]
    dsimp only
    split
    · rename_i form slots owner found
      split
      · rename_i d delayed
        rw [perform_bind]
        rcases computed : perform (compute operator d) reader w with ⟨e | slot, w'⟩
        · have grown : Growing reader w w' := Keeps.after computed
          exact grown.refines
        · have grown : Growing reader w w' := Keeps.after computed
          obtain ⟨owner', kept⟩ := grown.nodes (Nat.zero_le _) found
          simp only [perform_modifyStore, kept]
          exact grown.refines.trans (set_body found delayed computed kept)
      · exact .refl w.store
    · exact .refl w.store

/-! ### Questions

What computing bodies does to a workspace, the questions do that compute them.
-/

theorem perform_settle (x : Work α) (reader : Reader) (w : Workspace) :
    perform (settle x) reader w = match perform x reader w with
      | (.ok a, w') => (.ok (.ok a), w')
      | (.error e, w') => (.ok (.error e), (perform (Work.log e.log) reader w').2) := by
  simp only [settle, perform_bind, perform_tryCatch]
  rcases perform x reader w with ⟨_ | _, _⟩ <;> rfl

section
variable {R : Reader → Workspace → Workspace → Prop} [Lasting R]

instance [logs : ∀ lines, Keeps R (Work.log lines)] (x : Work α) [Keeps R x] : Keeps R (settle x) where
  keeps reader w := by
    rw [perform_settle]
    rcases ran : perform x reader w with ⟨e | a, w'⟩
    · have done : R reader w w' := Keeps.after ran
      exact Lasting.trans done ((logs e.log).keeps reader w')
    · exact Keeps.after ran

variable [∀ id, Keeps R (force id)]

instance (ask : Store → Except Error α) (times : Nat) : Keeps R (observeUpTo ask times) := by
  induction times with
  | zero => rw [observeUpTo]; infer_instance
  | succ times ih =>
    rw [observeUpTo]
    refine Keeps.bind inferInstance fun store => ?_
    split <;> infer_instance

instance (ask : Store → Except Error α) : Keeps R (observe ask) := by unfold observe; infer_instance

instance (slot : Slot) : Keeps R (print slot) := by unfold print; infer_instance

end

end SwanModel
