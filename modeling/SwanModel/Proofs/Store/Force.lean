import SwanModel.Proofs.Store.View

/-!
# Computing a body succeeds

`Work.force` puts a body in the place of its tree where it can be converted and loaded.
-/

namespace SwanModel

open Work

variable {store : Store} {ts parts : List Term} {slots : List Slot}

variable {α : Type} {reader : Reader} {w w' : Workspace} {form : Form} {id : Nat} {t : Term}
  {tree : ParseTree}

theorem ofConversion_ok {c : Conversion α} {a : α}
    (converted : perform c reader w.reading = (.ok a, w.reading)) :
    perform (ofConversion c) reader w = (.ok a, w) := by
  rw [perform_ofConversion, converted]

/-- A body is computed if it can be converted and loaded; what stands for it is a construct or
nothing. -/
theorem compute_tree_ok (id : Nat)
    (converted : perform (convert .operatorBody tree) reader w.reading = (.ok t, w.reading))
    (loadable : t.isLoadable = true) (possible : t = .absent ∨ t.isAdoptable = true) :
    ∃ slot w', perform (compute id (.tree tree)) reader w = (.ok slot, w') ∧ Grows 0 w.store w'.store ∧
      Lasts w.store.cells.size w'.store t slot := by
  obtain ⟨slot, w₁, loaded, lasts, grows⟩ := (load_spec t reader w).ok loadable
  rw [compute, perform_bind_ok (ofConversion_ok converted), perform_bind_ok loaded]
  cases slot with
  | ref =>
    have held := lasts (.refl w₁.store)
    have adoptable : t.isAdoptable = true := by
      refine possible.resolve_left ?_
      rintro rfl
      cases held
    have adoption : SucceedsIff (adopt (.ref id) (.ref _)) reader w₁ _ _ := adopt_spec held id
    obtain ⟨_, w₂, adopted, grows'⟩ := adoption.ok adoptable
    refine ⟨_, w₂, perform_bind_ok adopted _, grows.trans grows', fun later => ?_⟩
    exact lasts ((grows'.raise (Nat.zero_le _)).trans later)
  | _ => exact ⟨_, w₁, rfl, grows, lasts⟩

theorem HeldAll.replace {body : Bodies} {store' : Store} {i : Nat} {slot : Slot}
    (held : HeldAll .none store ts slots) (refines : Refines body store store')
    (settled : Term.areSettled (ts.eraseIdx i) = true) (new : Held .none store' t slot) :
    HeldAll .none store' (ts.set i t) (slots.set i slot) := by
  induction ts generalizing slots i with
  | nil => cases held; exact .nil
  | cons first ts ih =>
    cases held with
    | cons head tail =>
      cases i with
      | zero => exact .cons new ((tail.of_none.mono refines).to_none settled)
      | succ i =>
        simp only [List.eraseIdx_cons_succ, Term.areSettled, Bool.and_eq_true] at settled
        exact .cons ((head.of_none.mono refines).to_none settled.1) (ih tail settled.2)

theorem HeldAll.delayed {i : Nat} (held : HeldAll .none store ts slots)
    (found : ts[i]? = some (.raw tree)) : slots[i]? = some (.delayed (.tree tree)) := by
  obtain ⟨slot, found, held⟩ := held.getElem? found
  cases held with
  | plain plain => cases plain
  | delayed => exact found
  | computed stands => exact stands.elim

/-- The body of an operator takes the place of its tree. -/
theorem force_ok (held : Held .none w.store (.node form parts) (.ref id))
    (delayed : parts[Operator.bodyIndex]? = some (.raw tree))
    (settled : Term.areSettled (parts.eraseIdx Operator.bodyIndex) = true)
    (converted : perform (convert .operatorBody tree) reader w.reading = (.ok t, w.reading))
    (loadable : t.isLoadable = true) (possible : t = .absent ∨ t.isAdoptable = true) :
    ∃ w', perform (force id) reader w = (.ok (), w') ∧
      Held .none w'.store (.node form (parts.set Operator.bodyIndex t)) (.ref id) := by
  cases held with
  | node cell members =>
    have found := members.delayed delayed
    obtain ⟨new, w₁, computed, grows, lasts⟩ := compute_tree_ok id converted loadable possible
    obtain ⟨_, kept⟩ := grows.nodes (Nat.zero_le _) cell
    have changed := set_body cell found computed kept
    refine ⟨_, by
      simp only [force, perform_bind, perform_store, cell, found, computed, perform_modifyStore, kept]
      rfl, ?_⟩
    -- The body lies in new cells, so that the change of the operator does not touch it.
    refine .node (Store.cell?_set_self _ (Store.lt_of_cell? kept)) ?_
    exact members.replace (grows.refines.trans changed) settled
      (lasts (grows_set_below (Store.lt_of_cell? cell) _))

theorem HeldAll.not_delayed (held : HeldAll .none store ts slots)
    (settled : Term.areSettled ts = true) (d : Delayed) : Slot.delayed d ∉ slots := by
  induction ts generalizing slots with
  | nil => cases held; simp
  | cons t ts ih =>
    cases held with
    | cons head tail =>
      simp only [Term.areSettled, Bool.and_eq_true] at settled
      rw [List.mem_cons, not_or]
      exact ⟨(head.not_delayed settled.1 d).symm, ih tail settled.2⟩

theorem force_settled (reader : Reader) (held : Held .none w.store (.node form parts) (.ref id))
    (settled : Term.areSettled parts = true) : perform (force id) reader w = (.ok (), w) := by
  cases held with
  | node cell members =>
    simp only [force, perform_bind, perform_store, cell]
    split
    · rename_i d found
      exact absurd (List.mem_of_getElem? found) (members.not_delayed settled d)
    · rfl

/-! ### Questions that depend on a body -/

theorem observeUpTo_definite {ask : Store → Except Error α}
    (definite : ∀ k, ask w.store ≠ .error (.pending k)) (times : Nat) :
    perform (observeUpTo ask times) reader w = (ask w.store, w) := by
  have given : perform (Work.ofExcept (ask w.store)) reader w = (ask w.store, w) := by
    cases ask w.store <;> rfl
  cases times with
  | zero => rwa [observeUpTo, perform_bind_ok perform_store]
  | succ times =>
    rw [observeUpTo, perform_bind_ok perform_store]
    split
    · rename_i k pending
      exact absurd pending (definite k)
    · exact given

/-- A question that depends on no body is answered by the store as it is. -/
theorem observe_definite {ask : Store → Except Error α}
    (definite : ∀ k, ask w.store ≠ .error (.pending k)) :
    perform (observe ask) reader w = (ask w.store, w) := by
  rw [observe, perform_bind_ok perform_store]
  exact observeUpTo_definite definite _

theorem observeUpTo_ok {ask : Store → Except Error α} {a : α} (answer : ask w.store = .ok a)
    (times : Nat) : perform (observeUpTo ask times) reader w = (.ok a, w) := by
  rw [observeUpTo_definite (by simp [answer]), answer]

theorem observe_ok {ask : Store → Except Error α} {a : α} (answer : ask w.store = .ok a) :
    perform (observe ask) reader w = (.ok a, w) := by
  rw [observe_definite (by simp [answer]), answer]

theorem ofExcept_answer {x : Except Error α} {a : α}
    (answered : perform (Work.ofExcept x) reader w = (.ok a, w')) : x = .ok a ∧ w = w' := by
  cases x with
  | error e => cases answered
  | ok b =>
    cases answered
    exact ⟨rfl, rfl⟩

/-- The answer to a question is the one that the store behind it gives. -/
theorem observeUpTo_answer {ask : Store → Except Error α} {a : α} {times : Nat}
    (answered : perform (observeUpTo ask times) reader w = (.ok a, w')) : ask w'.store = .ok a := by
  induction times generalizing w with
  | zero =>
    rw [observeUpTo, perform_bind_ok perform_store] at answered
    obtain ⟨answer, rfl⟩ := ofExcept_answer answered
    exact answer
  | succ times ih =>
    rw [observeUpTo, perform_bind_ok perform_store] at answered
    split at answered
    next =>
      obtain ⟨_, _, _, answered⟩ := bind_ok answered
      exact ih answered
    next =>
      obtain ⟨answer, rfl⟩ := ofExcept_answer answered
      exact answer

theorem observe_answer {ask : Store → Except Error α} {a : α}
    (answered : perform (observe ask) reader w = (.ok a, w')) : ask w'.store = .ok a := by
  rw [observe, perform_bind_ok perform_store] at answered
  exact observeUpTo_answer answered

theorem foldr_weight_pos {β : Type} {weight : β → Nat} {xs : List β} {x : β} (inside : x ∈ xs)
    (heavy : 0 < weight x) : 0 < xs.foldr (fun x n => weight x + n) 0 := by
  induction xs with
  | nil => cases inside
  | cons first xs ih =>
    rw [List.foldr_cons]
    rcases List.mem_cons.mp inside with rfl | inside
    · omega
    · have := ih inside
      omega

theorem Held.weight_pos (held : Held .none store (.node form parts) (.ref id))
    (delayed : parts[Operator.bodyIndex]? = some (.raw tree)) : 0 < store.weight := by
  cases held with
  | node cell members =>
    rename_i slots owner
    have inside : Cell.node form slots owner ∈ store.cells.toList := by
      rw [Array.mem_toList_iff]
      exact Array.mem_of_getElem? cell
    have heavy : 0 < (Cell.node form slots owner).weight :=
      foldr_weight_pos (List.mem_of_getElem? (members.delayed delayed)) Nat.one_pos
    rw [Store.weight, ← Array.foldr_toList]
    exact foldr_weight_pos inside heavy

/-- A question that depends on a body is answered after the body is computed. -/
theorem observe_pending {ask : Store → Except Error α} {a : α}
    (asked : ask w.store = .error (.pending id)) (heavy : 0 < w.store.weight)
    (forced : perform (force id) reader w = (.ok (), w')) (answer : ask w'.store = .ok a) :
    perform (observe ask) reader w = (.ok a, w') := by
  rw [observe, perform_bind_ok perform_store]
  obtain ⟨times, weight⟩ : ∃ times, w.store.weight = times + 1 := ⟨w.store.weight - 1, by omega⟩
  rw [weight, observeUpTo, perform_bind_ok perform_store, asked]
  exact (perform_bind_ok forced _).trans (observeUpTo_ok answer times)

end SwanModel
