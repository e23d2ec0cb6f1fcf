import SwanModel.Proofs.Convert.Delayed
import SwanModel.Proofs.Store.Fresh
import SwanModel.Proofs.Store.View
import SwanModel.Session.Route

/-!
# How cells change

Parsing, reading properties and printing change the cells of a store in one way only: the tree of an
operator is replaced by its body.
-/

namespace SwanModel

open Work

variable {α : Type} {reader : Reader} {store store' store'' : Store} {w w' : Workspace}
  {id operator : Nat} {tree : ParseTree} {t : Term} {slot : Slot} {form : Form} {slots : List Slot}
  {owner : Owner}

/-- A computed body: the store holds its term, and a construct belongs to the operator. -/
structure IsBody (reader : Reader) (store : Store) (operator : Nat) (t : Term) (slot : Slot) : Prop where
  held : Held (BodyOf reader) store t slot
  owned : slot = .atom .absent ∨ ∃ id, slot = .ref id ∧ store.owner id = .construct operator

inductive CellSettles (reader : Reader) (store : Store) (id : Nat) : Cell → Cell → Prop
  | same (cell : Cell) : CellSettles reader store id cell cell
  | computed {form : Form} {slots : List Slot} {owner : Owner} {tree : ParseTree} {t : Term}
      {slot : Slot} (delayed : slots[Operator.bodyIndex]? = some (.delayed (.tree tree)))
      (stands : BodyOf reader tree t) (body : IsBody reader store id t slot) :
      CellSettles reader store id (.node form slots owner)
        (.node form (slots.set Operator.bodyIndex slot) owner)

/-- All cells stay, but bodies may be computed. -/
structure CellsSettle (reader : Reader) (store store' : Store) : Prop where
  kept : ∀ {id cell}, store.cell? id = some cell →
    ∃ cell', store'.cell? id = some cell' ∧ CellSettles reader store' id cell cell'

theorem CellsSettle.refl (reader : Reader) (store : Store) : CellsSettle reader store store where
  kept found := ⟨_, found, .same _⟩

theorem CellsSettle.refines (settle : CellsSettle reader store store') :
    Refines (BodyOf reader) store store' where
  lists found := by
    obtain ⟨_, found', change⟩ := settle.kept found
    cases change
    exact found'
  nodes found := by
    obtain ⟨_, found', change⟩ := settle.kept found
    cases change with
    | same => exact ⟨_, _, found', slots_same _⟩
    | computed delayed stands body => exact ⟨_, _, found', slots_set delayed (.tree stands body.held)⟩

theorem Store.owner_eq (found : store.cell? id = some (.node form slots owner)) :
    store.owner id = owner := by
  rw [Store.owner, found]

theorem CellsSettle.owned (settle : CellsSettle reader store store')
    (owned : store.owner id = .construct operator) : store'.owner id = .construct operator := by
  unfold Store.owner at owned
  split at owned
  · rename_i found
    obtain ⟨_, found', change⟩ := settle.kept found
    cases change with
    | same => exact (Store.owner_eq found').trans owned
    | computed => exact (Store.owner_eq found').trans owned
  · cases owned

theorem IsBody.mono (body : IsBody reader store operator t slot)
    (settle : CellsSettle reader store store') : IsBody reader store' operator t slot where
  held := body.held.mono settle.refines
  owned := by
    refine body.owned.imp_right ?_
    rintro ⟨id, rfl, owned⟩
    exact ⟨id, rfl, settle.owned owned⟩

theorem IsBody.not_delayed (body : IsBody reader store operator t slot) (d : Delayed) :
    slot ≠ .delayed d := by
  rintro rfl
  rcases body.owned with absurd | ⟨_, absurd, _⟩ <;> cases absurd

theorem body_of_set (found : slots[Operator.bodyIndex]? = some slot) (new : Slot) :
    (slots.set Operator.bodyIndex new)[Operator.bodyIndex]? = some new := by
  obtain ⟨inside, _⟩ := List.getElem?_eq_some_iff.mp found
  simp [inside]

theorem CellsSettle.trans (first : CellsSettle reader store store')
    (second : CellsSettle reader store' store'') : CellsSettle reader store store'' where
  kept found := by
    obtain ⟨cell', found', change⟩ := first.kept found
    obtain ⟨cell'', found'', change'⟩ := second.kept found'
    refine ⟨cell'', found'', ?_⟩
    cases change with
    | same => exact change'
    | computed delayed stands body =>
      cases change' with
      | same => exact .computed delayed stands (body.mono second)
      | computed delayed' =>
        -- A body that is computed is not delayed any more.
        rw [body_of_set delayed] at delayed'
        exact absurd (Option.some.inj delayed') (body.not_delayed _)

/-! ### Workspaces -/

/-- How a workspace changes in which nothing is to be built. -/
structure Settles (reader : Reader) (w w' : Workspace) : Prop where
  closed : w'.store.ClosedFrom 0
  cells : CellsSettle reader w.store w'.store
  current : w.reading.source.isSome → w'.reading.source.isSome

theorem Settles.trans {w'' : Workspace} (first : Settles reader w w') (second : Settles reader w' w'') :
    Settles reader w w'' where
  closed := second.closed
  cells := first.cells.trans second.cells
  current current := second.current (first.current current)

/-- A change of a workspace settles it if it is closed. -/
def Settling (reader : Reader) (w w' : Workspace) : Prop := w.store.ClosedFrom 0 → Settles reader w w'

instance : Lasting Settling where
  refl _ _ closed := ⟨closed, .refl _ _, fun current => current⟩
  trans first second closed := (first closed).trans (second (first closed).closed)

theorem Fresh.settling (fresh : Fresh w.store.cells.size w w') : Settling reader w w' := by
  intro closed
  refine ⟨?_, ⟨?_⟩, ?_⟩
  · intro id cell low found other member
    by_cases inside : id < w.store.cells.size
    · rw [fresh.old id inside] at found
      exact (closed low found other member).widen (Nat.le_refl _) fresh.larger
    · have new := fresh.closed w.store.closedFrom_size (Nat.le_of_not_lt inside) found other member
      exact new.widen (Nat.zero_le _) (Nat.le_refl _)
  · intro id cell found
    refine ⟨cell, ?_, .same cell⟩
    rw [fresh.old id (Store.lt_of_cell? found)]
    exact found
  · intro current
    rwa [fresh.reading]

instance (lines : List LogLine) : Keeps Settling (Work.log lines) :=
  ⟨fun _ _ closed => ⟨closed, .refl _ _, fun current => current⟩⟩

instance (t : Term) : Keeps Settling (load t) :=
  ⟨fun reader w => (load_fresh t reader w).settling⟩

theorem ofConversion_settling {c : Conversion α}
    (keeps : ∀ {reader s}, s.source.isSome → (perform c reader s).2.source.isSome) :
    Keeps Settling (ofConversion c) where
  keeps reader w closed := by
    rw [perform_ofConversion]
    exact ⟨closed, .refl _ _, keeps⟩

instance [Carrier α] (c : Conversion α) [composed : Composed c] : Keeps Settling (ofConversion c) :=
  ofConversion_settling fun current => composed.source_isSome _ current

instance (parser : Nat) (task : Task) (source : Source) :
    Keeps Settling (ofConversion (task.parse parser source)) :=
  ofConversion_settling fun _ => task.parse_source_isSome parser source _ _

/-! ### Computing a body -/

def Work.keepBody (operator : Nat) (t : Term) : Work Slot := do
  let slot ← load t
  match slot with
  | .ref _ => adopt (.ref operator) slot
  | _ => pure ()
  return slot

theorem compute_tree_eq (operator : Nat) (tree : ParseTree) :
    compute operator (.tree tree) =
      ofConversion (convert .operatorBody tree) >>= keepBody operator := rfl

theorem keepBody_builds (operator : Nat) (t : Term) (reader : Reader) (w : Workspace) :
    Builds w.store.cells.size (keepBody operator t) reader w
      fun slot w' => slot.Within w.store.cells.size w'.store.cells.size := by
  refine (load_builds t reader w (Nat.le_refl _) w.store.closedFrom_size).bind fun slot w₁ _ within => ?_
  cases slot with
  | ref id =>
    refine (adopt_builds (.ref operator) within).bind fun _ w₂ fresh _ => .pure ?_
    exact within.widen (Nat.le_refl _) fresh.larger
  | _ => exact .pure within

theorem perform_adopt (found : w.store.cell? id = some (.node form slots owner)) (new : Nat) :
    perform (adopt (.ref new) (.ref id)) reader w =
      (.ok (), { w with store := w.store.set id (.node form slots (.construct new)) }) := by
  simp only [adopt, perform_bind, perform_store, found, perform_modifyStore]

/-- A body is kept if it is loadable, and a construct then belongs to the operator. -/
theorem keepBody_spec (operator : Nat) (waits : t.Waits) (reader : Reader) (w : Workspace) :
    SucceedsIff (keepBody operator t) reader w (t.isLoadable = true) fun slot w' =>
      Lasts w.store.cells.size w'.store t slot ∧
        (slot = .atom .absent ∨ ∃ id, slot = .ref id ∧ w'.store.owner id = .construct operator) := by
  refine ((load_spec t reader w).bind fun slot w₁ ⟨lasts, _⟩ => ?_).congr (and_iff_left trivial)
  have held := lasts (.refl w₁.store)
  rcases waits.absent_or_construct with rfl | ⟨form, parts, rfl⟩
  · cases held
    exact .pure _ ⟨lasts, .inl rfl⟩
  · cases held with
    | plain plain => cases plain
    | node cell _ =>
      refine .after (perform_adopt cell operator) (.pure _ ⟨fun later => lasts ?_, .inr ⟨_, rfl, ?_⟩⟩)
      · exact ((grows_set _ cell).raise (Nat.zero_le _)).trans later
      · exact Store.owner_eq (Store.cell?_set_self _ (Store.lt_of_cell? cell))

theorem compute_converted {s : Reading}
    (converted : perform (convert .operatorBody tree) reader w.reading = (.ok t, s)) :
    perform (compute operator (.tree tree)) reader w =
      perform (keepBody operator t) reader { w with reading := s } := by
  rw [compute_tree_eq, perform_bind, perform_ofConversion, converted]

theorem compute_refused {s : Reading} {e : Error}
    (refused : perform (convert .operatorBody tree) reader w.reading = (.error e, s)) :
    perform (compute operator (.tree tree)) reader w = (.error e, { w with reading := s }) := by
  rw [compute_tree_eq, perform_bind, perform_ofConversion, refused]

theorem compute_fresh (operator : Nat) (tree : ParseTree) (reader : Reader) (w : Workspace) :
    Fresh w.store.cells.size { w with
      reading :=
  (perform (convert .operatorBody tree) reader w.reading).2 } (perform
    (compute operator (.tree tree)) reader w).2 := by
  rcases converted : perform (convert .operatorBody tree) reader w.reading with ⟨e | t, s⟩
  · rw [compute_refused converted]
    exact .refl _ _
  · rw [compute_converted converted]
    exact (keepBody_builds operator t reader { w with reading := s }).1

/-- A body that is computed for an operator stays the body whatever becomes of the cell of the
operator. -/
theorem compute_isBody (found : w.store.cell? operator = some (.node form slots owner))
    (computed : perform (compute operator (.tree tree)) reader w = (.ok slot, w')) :
    ∃ t, (perform (convert .operatorBody tree) reader w.reading).1 = .ok t ∧
      slot.Within w.store.cells.size w'.store.cells.size ∧
      ∀ cell, IsBody reader (w'.store.set operator cell) operator t slot := by
  rcases converted : perform (convert .operatorBody tree) reader w.reading with ⟨e | t, s⟩
  · rw [compute_refused converted] at computed
    cases computed
  · rw [compute_converted converted] at computed
    have waits := (convert_delays .operatorBody tree rfl).result converted
    obtain ⟨-, lasts, owned⟩ :=
      (keepBody_spec operator waits reader { w with reading := s }).of_ok computed
    have within := (keepBody_builds operator t reader { w with reading := s }).2 slot
    rw [computed] at within
    refine ⟨t, rfl, within rfl, fun cell => ⟨?_, owned.imp_right ?_⟩⟩
    · exact (lasts (grows_set_below (Store.lt_of_cell? found) cell)).of_none
    · rintro ⟨id, rfl, belongs⟩
      have different : operator ≠ id :=
        Nat.ne_of_lt (Nat.lt_of_lt_of_le (Store.lt_of_cell? found) (within rfl).1)
      refine ⟨id, rfl, ?_⟩
      rw [Store.owner, Store.cell?_set_of_ne _ _ different]
      exact belongs

/-- A body is not computed only if it cannot be converted: what is converted can be loaded. -/
theorem compute_failed {e : Error}
    (failed : perform (compute operator (.tree tree)) reader w = (.error e, w')) :
    (perform (convert .operatorBody tree) reader w.reading).1 = .error e := by
  rcases converted : perform (convert .operatorBody tree) reader w.reading with ⟨e' | t, s⟩
  · rw [compute_refused converted] at failed
    cases failed
    rfl
  · rw [compute_converted converted] at failed
    have waits := (convert_delays .operatorBody tree rfl).result converted
    have made : t.Made := Composed.made inferInstance ⟨reader, _, _, converted⟩
    obtain ⟨_, _, kept, -⟩ :=
      (keepBody_spec operator waits reader { w with reading := s }).ok made.isLoadable
    rw [kept] at failed
    cases failed

/-- An operator that waits for its body gets it if it can be computed. -/
theorem perform_force (found : w.store.cell? id = some (.node form slots owner))
    (delayed : slots[Operator.bodyIndex]? = some (.delayed (.tree tree))) :
    perform (force id) reader w = match perform (compute id (.tree tree)) reader w with
      | (.ok slot, w') =>
        (.ok (), { w' with
          store := w'.store.set id (.node form (slots.set Operator.bodyIndex slot) owner) })
      | (.error e, w') => (.error e, w') := by
  simp only [force, perform_bind, perform_store, found, delayed]
  have old := (compute_fresh id tree reader w).old id (Store.lt_of_cell? found)
  rcases ran : perform (compute id (.tree tree)) reader w with ⟨e | slot, w'⟩
  · rfl
  · rw [ran] at old
    have kept : w'.store.cell? id = some (.node form slots owner) := old.trans found
    simp only [perform_modifyStore, kept]

theorem force_idle (idle : ∀ {form slots owner d}, w.store.cell? id = some (.node form slots owner) →
    slots[Operator.bodyIndex]? ≠ some (.delayed d)) : perform (force id) reader w = (.ok (), w) := by
  unfold force
  rw [perform_bind_ok perform_store]
  split
  · rename_i found
    split
    · rename_i delayed
      exact absurd delayed (idle found)
    · rfl
  · rfl

/-- In a closed workspace an operator waits with its tree, or nothing is done when its body is asked
for. -/
theorem waits_or_idle (reader : Reader) (closed : w.store.ClosedFrom 0) (operator : Nat) :
    (∃ form slots owner tree, w.store.cell? operator = some (.node form slots owner) ∧
      slots[Operator.bodyIndex]? = some (.delayed (.tree tree))) ∨
        perform (force operator) reader w = (.ok (), w) := by
  refine or_iff_not_imp_left.mpr fun waits => force_idle fun {form slots owner d} found delayed => ?_
  cases d with
  | plan b => exact closed (Nat.zero_le _) found _ (List.mem_of_getElem? delayed)
  | tree tree => exact waits ⟨_, _, _, _, found, delayed⟩

theorem set_settles (closed : w.store.ClosedFrom 0)
    (found : w.store.cell? id = some (.node form slots owner))
    (delayed : slots[Operator.bodyIndex]? = some (.delayed (.tree tree)))
    (stands : BodyOf reader tree t) (within : slot.Within 0 w.store.cells.size)
    (body : IsBody reader (w.store.set id (.node form (slots.set Operator.bodyIndex slot) owner)) id
      t slot) :
    Settles reader w { w with
      store := w.store.set id (.node form (slots.set Operator.bodyIndex slot) owner) } where
  closed := by
    intro other cell low present member inside
    have size : (w.store.set id (.node form (slots.set Operator.bodyIndex slot) owner)).cells.size =
        w.store.cells.size := by
      simp [Store.set]
    rw [size]
    by_cases same : id = other
    · subst same
      rw [Store.cell?_set_self _ (Store.lt_of_cell? found)] at present
      obtain rfl := Option.some.inj present
      rcases List.mem_or_eq_of_mem_set inside with inside | rfl
      · exact closed low found member inside
      · exact within
    · rw [Store.cell?_set_of_ne _ _ same] at present
      exact closed low present member inside
  cells := by
    refine ⟨fun {other cell} present => ?_⟩
    by_cases same : id = other
    · subst same
      obtain rfl := Option.some.inj (found.symm.trans present)
      exact ⟨_, Store.cell?_set_self _ (Store.lt_of_cell? found), .computed delayed stands body⟩
    · exact ⟨cell, (Store.cell?_set_of_ne _ _ same).trans present, .same cell⟩
  current current := current

instance (operator : Nat) (tree : ParseTree) : Keeps Settling (compute operator (.tree tree)) where
  keeps reader w := by
    have converted : Settling reader w _ :=
      (inferInstance : Keeps Settling (ofConversion (convert .operatorBody tree))).keeps reader w
    rw [perform_ofConversion] at converted
    exact Lasting.trans converted (compute_fresh operator tree reader w).settling

instance (operator : Nat) : Keeps Settling (force operator) where
  keeps reader w closed := by
    rcases waits_or_idle reader closed operator with ⟨form, slots, owner, tree, found, delayed⟩ | idle
    · rw [perform_force found delayed]
      have old := (compute_fresh operator tree reader w).old operator (Store.lt_of_cell? found)
      rcases computed : perform (compute operator (.tree tree)) reader w with ⟨e | slot, w'⟩
      · have settled : Settling reader w w' := Keeps.after computed
        exact settled closed
      · have settled : Settling reader w w' := Keeps.after computed
        obtain ⟨t, converted, within, body⟩ := compute_isBody found computed
        rw [computed] at old
        have stands : BodyOf reader tree t := ⟨w.reading, _, Prod.ext converted rfl⟩
        exact (settled closed).trans
          (set_settles (settled closed).closed (old.trans found) delayed stands
            (within.widen (Nat.zero_le _) (Nat.le_refl _)) (body _))
    · rw [idle]
      exact (Lasting.refl reader w : Settling reader w w) closed

/-! ### Properties -/

section
variable {R : Reader → Workspace → Workspace → Prop} [Lasting R] [∀ id, Keeps R (force id)]
  [∀ t, Keeps R (load t)]

instance (ts : List Term) : Keeps R (loadAll ts) := by
  induction ts with
  | nil => exact inferInstanceAs (Keeps R (pure [] : Work (List Slot)))
  | cons t rest ih => rw [loadAll]; infer_instance

instance (id : Nat) (place : List Nat) : Keeps R (slotAt id place) := by
  refine Keeps.bind inferInstance fun store => ?_
  split <;> infer_instance

instance (id : Nat) (property : Property) : Keeps R (readProperty id property) := by
  refine Keeps.bind inferInstance fun found => ?_
  split <;> infer_instance

instance (name : String) (slot : Slot) : Keeps R (property name slot) := by
  refine Keeps.bind inferInstance fun store => ?_
  split
  · infer_instance
  · split
    · infer_instance
    · split <;> infer_instance
  · infer_instance

end

end SwanModel
