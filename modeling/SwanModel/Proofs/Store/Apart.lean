import SwanModel.Proofs.Printing.Pending
import SwanModel.Proofs.Store.OwnerChains

/-!
# Texts of constructs that share nothing

What is shown of a construct depends on the cells that can be reached from it. So its text stays as
it is while constructs are printed that have no cell in common with it.
-/

namespace SwanModel

open Work Relation

variable {reader : Reader} {w w' : Workspace} {store store' last : Store} {t u : Term} {slot body : Slot}
  {slots : List Slot} {a b k id levels levels' : Nat} {outer outer' : List Nat}
  {places : Nat → Prop} {bodies : Bodies}

/-- The text of the thing at a slot, as far as bodies are computed. -/
def Store.text (store : Store) (slot : Slot) : Except Error String := do (← store.view slot).print

theorem mapM_congr {α β : Type} {f g : α → Except Error β} {xs : List α} (same : ∀ x ∈ xs, f x = g x) :
    xs.mapM f = xs.mapM g := by
  induction xs with
  | nil => rfl
  | cons x xs ih =>
    rw [List.forall_mem_cons] at same
    rw [List.mapM_cons, List.mapM_cons, same.1, ih same.2]

/-! ### What is there now -/

theorem Term.mem_pendingsAll {ts : List Term} : k ∈ Term.pendingsAll ts ↔ ∃ t ∈ ts, k ∈ t.pendings := by
  induction ts with
  | nil => simp [Term.pendingsAll]
  | cons t ts ih => simp [Term.pendingsAll, ih]

theorem Term.Made.pendings_eq (made : t.Made) : t.pendings = [] := by
  rw [List.eq_nil_iff_forall_not_mem]
  induction made with
  | @leaf t leaf =>
    intro k
    cases t with
    | list => cases leaf
    | node => cases leaf
    | pending => cases leaf
    | _ => simp [Term.pendings]
  | list _ ih =>
    intro k member
    obtain ⟨t, inside, member⟩ := Term.mem_pendingsAll.mp member
    exact ih t inside k member
  | node _ _ _ ih =>
    intro k member
    obtain ⟨t, inside, member⟩ := Term.mem_pendingsAll.mp member
    exact ih t inside k member

theorem BodyOf.pendings_eq {tree : ParseTree} (isBody : BodyOf reader tree t) : t.pendings = [] := by
  obtain ⟨s, s', converted⟩ := isBody
  have made : t.Made := Composed.made inferInstance ⟨reader, s, s', converted⟩
  exact made.pendings_eq

mutual

/-- Where bodies are computed, the store holds another term: the one with these bodies. -/
theorem Held.current {t : Term} {slot : Slot} (clears : ∀ {tree b}, bodies tree b → b.pendings = [])
    (held : Held bodies store t slot) (clear : t.pendings = []) :
    ∃ u, Held .none store u slot ∧ u.pendings = [] :=
  match held with
  | .plain plain => ⟨t, .plain plain, clear⟩
  | .delayed tree => ⟨_, .delayed tree, rfl⟩
  | .computed stands held => held.current clears (clears stands)
  | .list cell members => by
    obtain ⟨us, held, clear⟩ := members.current clears clear
    exact ⟨_, .list cell held, clear⟩
  | .node cell members => by
    obtain ⟨us, held, clear⟩ := members.current clears clear
    exact ⟨_, .node cell held, clear⟩

theorem HeldAll.current {ts : List Term} {slots : List Slot}
    (clears : ∀ {tree b}, bodies tree b → b.pendings = []) (held : HeldAll bodies store ts slots)
    (clear : Term.pendingsAll ts = []) :
    ∃ us, HeldAll .none store us slots ∧ Term.pendingsAll us = [] :=
  match held with
  | .nil => ⟨[], .nil, rfl⟩
  | .cons head tail => by
    rw [Term.pendingsAll, List.append_eq_nil_iff] at clear
    obtain ⟨u, first, here⟩ := head.current clears clear.1
    obtain ⟨us, rest, there⟩ := tail.current clears clear.2
    exact ⟨u :: us, .cons first rest, by simp [Term.pendingsAll, here, there]⟩

end

/-! ### What is shown -/

/-- What is shown does not depend on where it is looked at from. -/
theorem Held.viewInside_eq (held : Held .none store t slot) (here : Inside store levels outer t)
    (there : Inside store levels' outer' t) :
    store.viewInside levels outer slot = store.viewInside levels' outer' slot := by
  induction levels generalizing t slot outer levels' outer' with
  | zero =>
    cases held with
    | plain => cases levels' <;> rfl
    | delayed => cases levels' <;> rfl
    | computed stands => exact stands.elim
    | list cell members =>
      obtain ⟨_, absurd, -⟩ := here.step (.list cell members)
      cases absurd
    | node cell members =>
      obtain ⟨_, absurd, -⟩ := here.step (.node cell members)
      cases absurd
  | succ levels ih =>
    cases held with
    | plain => cases levels' <;> rfl
    | delayed => cases levels' <;> rfl
    | computed stands => exact stands.elim
    | list cell members =>
      obtain ⟨_, rfl, outside'⟩ := there.step (.list cell members)
      obtain ⟨_, same, outside⟩ := here.step (.list cell members)
      cases same
      simp only [Store.viewInside, List.contains_eq_mem, outside, outside', decide_false,
        Bool.false_eq_true, if_false, cell]
      rw [mapM_congr fun slot member => ?_]
      obtain ⟨part, inside, held⟩ := members.mem member
      exact ih held (here.deeper (.list cell members) outside (sizeOf_item inside))
        (there.deeper (.list cell members) outside' (sizeOf_item inside))
    | node cell members =>
      obtain ⟨_, rfl, outside'⟩ := there.step (.node cell members)
      obtain ⟨_, same, outside⟩ := here.step (.node cell members)
      cases same
      simp only [Store.viewInside, List.contains_eq_mem, outside, outside', decide_false,
        Bool.false_eq_true, if_false, cell]
      rw [mapM_congr fun slot member => ?_]
      obtain ⟨part, inside, held⟩ := members.mem member
      split
      · rfl
      · exact ih held (here.deeper (.node cell members) outside (sizeOf_part inside))
          (there.deeper (.node cell members) outside' (sizeOf_part inside))

theorem mapM_mem {α β : Type} {f : α → Except Error β} {xs : List α} {ys : List β} {y : β}
    (made : xs.mapM f = .ok ys) (inside : y ∈ ys) : ∃ x ∈ xs, f x = .ok y := by
  induction xs generalizing ys with
  | nil =>
    cases made
    cases inside
  | cons x xs ih =>
    rw [List.mapM_cons] at made
    obtain ⟨first, here, made⟩ := ok_of_bind made
    obtain ⟨rest, there, made⟩ := ok_of_bind made
    cases made
    rcases List.mem_cons.mp inside with rfl | inside
    · exact ⟨x, List.mem_cons_self, here⟩
    · obtain ⟨x', member, found⟩ := ih there inside
      exact ⟨x', List.mem_cons_of_mem _ member, found⟩

theorem Term.pendings_of_mem {ts : List Term} (clear : Term.pendingsAll ts = []) (inside : t ∈ ts) :
    t.pendings = [] := by
  rw [List.eq_nil_iff_forall_not_mem]
  intro k member
  rw [List.eq_nil_iff_forall_not_mem] at clear
  exact clear k (Term.mem_pendingsAll.mpr ⟨t, inside, member⟩)

theorem Held.shown_pendings {shown : Term} (held : Held .none store t slot) (clear : t.pendings = [])
    (closes : store.Closes places) (into : slot.Into places)
    (seen : store.viewInside levels outer slot = .ok shown) :
    ∀ k ∈ shown.pendings, places k := by
  induction levels generalizing t slot outer shown with
  | zero =>
    cases held with
    | plain =>
      cases seen
      simp [clear]
    | computed stands => exact stands.elim
    | _ =>
      cases seen
      simp [Term.pendings]
  | succ levels ih =>
    cases held with
    | plain =>
      cases seen
      simp [clear]
    | delayed =>
      cases seen
      simp [Term.pendings]
    | computed stands => exact stands.elim
    | list cell members =>
      rw [Store.viewInside, cell] at seen
      split at seen
      · cases seen
        simp [Term.pendings]
      · obtain ⟨ts, all, rfl⟩ := mapped_ok seen
        intro k member
        obtain ⟨part, present, member⟩ := Term.mem_pendingsAll.mp member
        obtain ⟨other, listed, seen⟩ := mapM_mem all present
        obtain ⟨u, below, held⟩ := members.mem listed
        refine ih held (Term.pendings_of_mem clear below) ?_ seen k member
        rintro id rfl
        exact closes (into _ rfl) cell id listed
    | node cell members =>
      rw [Store.viewInside, cell] at seen
      split at seen
      · cases seen
        simp [Term.pendings]
      · obtain ⟨ts, all, rfl⟩ := mapped_ok seen
        intro k member
        obtain ⟨part, present, member⟩ := Term.mem_pendingsAll.mp member
        obtain ⟨other, listed, seen⟩ := mapM_mem all present
        obtain ⟨u, below, held⟩ := members.mem listed
        split at seen
        · -- A body that is still to come is shown with the number of its construct.
          cases seen
          obtain rfl : k = _ := by simpa [Term.pendings] using member
          exact into _ rfl
        · refine ih held (Term.pendings_of_mem clear below) ?_ seen k member
          rintro id rfl
          exact closes (into _ rfl) cell id listed

theorem Held.text_pending (held : Held .none store t slot) (clear : t.pendings = [])
    (closes : store.Closes places) (into : slot.Into places)
    (failed : store.text slot = .error (.pending k)) : places k := by
  obtain ⟨shown, seen⟩ := held.viewInside_ok (store.cells.size + 1) []
  have failed : shown.print = .error (.pending k) := by
    rw [Store.text, Store.view, seen] at failed
    exact failed
  exact held.shown_pendings clear closes into seen k (Term.print_pending failed)

theorem Store.viewInside_frame (closes : store.Closes places)
    (same : ∀ id, places id → store'.cell? id = store.cell? id) (into : slot.Into places) :
    store'.viewInside levels outer slot = store.viewInside levels outer slot := by
  have isList (id : Nat) (inside : places id) : store'.isList id = store.isList id := by
    rw [Store.isList, Store.isList, same id inside]
  induction levels generalizing slot outer with
  | zero =>
    cases slot with
    | ref id => simp only [Store.viewInside, isList id (into id rfl)]
    | _ => rfl
  | succ levels ih =>
    cases slot with
    | ref id =>
      have inside := into id rfl
      simp only [Store.viewInside, isList id inside, same id inside]
      split
      · rfl
      · cases found : store.cell? id with
        | none => rfl
        | some cell =>
          cases cell with
          | list items =>
            dsimp only
            rw [mapM_congr fun slot member => ih ?_]
            rintro other rfl
            exact closes inside found other member
          | node form slots owner =>
            dsimp only
            rw [mapM_congr fun slot member => ?_]
            split
            · rfl
            · refine ih ?_
              rintro other rfl
              exact closes inside found other member
    | _ => rfl

/-- The text of a thing stays when the cells that can be reached from it stay. -/
theorem Held.text_frame (held : Held .none store t slot) (closes : store.Closes places)
    (into : slot.Into places) (same : ∀ id, places id → store'.cell? id = store.cell? id)
    (larger : store.cells.size ≤ store'.cells.size) :
    store'.text slot = store.text slot := by
  have further : Inside store (store'.cells.size + 1) [] t := by
    refine ⟨List.nodup_nil, by simp, ?_⟩
    simp only [List.length_nil]
    omega
  rw [Store.text, Store.text, Store.view, Store.view, Store.viewInside_frame closes same into,
    held.viewInside_eq further (.top store t)]

/-! ### Constructs without a common cell -/

/-- Cells that hold everything that can be reached from a construct. -/
structure Store.Ground (store : Store) (a : Nat) (places : Nat → Prop) : Prop where
  top : places a
  present : ∀ id, places id → id < store.cells.size
  closes : store.Closes places

/-- Two constructs from which no cell can be reached in common. -/
def Store.Apart (store : Store) (a b : Nat) : Prop :=
  ∃ first second, store.Ground a first ∧ store.Ground b second ∧ ∀ id, first id → ¬ second id

theorem Store.Ground.into (ground : store.Ground a places) : (Slot.ref a).Into places := by
  rintro id ⟨⟩
  exact ground.top

theorem Store.Ground.fresh (ground : store.Ground a places)
    (old : ∀ id < store.cells.size, store'.cell? id = store.cell? id)
    (larger : store.cells.size ≤ store'.cells.size) :
    store'.Ground a places where
  top := ground.top
  present id inside := Nat.lt_of_lt_of_le (ground.present id inside) larger
  closes := by
    intro id cell inside found
    rw [old id (ground.present id inside)] at found
    exact ground.closes inside found

def grown (store last : Store) (k : Nat) (places : Nat → Prop) (id : Nat) : Prop :=
  places id ∨ places k ∧ store.cells.size ≤ id ∧ id < last.cells.size

theorem Store.Ground.with_body (ground : store.Ground a places) (gets : store.GetsBody last k body) :
    last.Ground a (grown store last k places) where
  top := .inl ground.top
  present := by
    rintro id (inside | ⟨-, -, below⟩)
    · exact Nat.lt_of_lt_of_le (ground.present id inside) gets.larger
    · exact below
  closes := by
    rintro id cell (inside | ⟨around, above, below⟩) found other member
    · by_cases same : id = k
      · subst same
        obtain ⟨form, slots, owner, before, after⟩ := gets.changed
        obtain rfl := Option.some.inj (after.symm.trans found)
        rcases List.mem_or_eq_of_mem_set member with member | rfl
        · exact .inl (ground.closes inside before other member)
        · exact .inr ⟨inside, gets.within⟩
      · rw [gets.others id (ground.present id inside) same] at found
        exact .inl (ground.closes inside found other member)
    · exact .inr ⟨around, gets.closed above found (.ref other) member⟩

theorem WorkStep.apart (step : WorkStep reader w w') (closed : w.store.ClosedFrom 0)
    (apart : w.store.Apart a b) : w'.store.Apart a b := by
  obtain ⟨first, second, one, two, disjoint⟩ := apart
  cases step with
  | other same =>
    rw [same]
    exact ⟨first, second, one, two, disjoint⟩
  | load t =>
    have fresh := load_fresh t reader w
    exact ⟨first, second, one.fresh fresh.old fresh.larger, two.fresh fresh.old fresh.larger, disjoint⟩
  | force k =>
    rcases force_effect reader closed k with same | ⟨body, gets⟩
    · rw [same]
      exact ⟨first, second, one, two, disjoint⟩
    · refine ⟨_, _, one.with_body gets, two.with_body gets, ?_⟩
      rintro id (inside | ⟨around, above, -⟩) (inside' | ⟨around', above', -⟩)
      · exact disjoint id inside inside'
      · exact absurd (one.present id inside) (Nat.not_lt.mpr above')
      · exact absurd (two.present id inside') (Nat.not_lt.mpr above)
      · exact disjoint k around around'

theorem WorkStep.cells (step : WorkStep reader w w') (closed : w.store.ClosedFrom 0) :
    CellsSettle reader w.store w'.store := by
  cases step with
  | other same =>
    rw [same]
    exact .refl _ _
  | load t w =>
    have settled : Settling reader w _ := Keeps.keeps (x := Work.load t) reader w
    exact (settled closed).cells
  | force id w =>
    have settled : Settling reader w _ := Keeps.keeps (x := Work.force id) reader w
    exact (settled closed).cells

/-- A construct is there as it was converted, but bodies in it may be computed. -/
def Store.Offers (reader : Reader) (store : Store) (a : Nat) : Prop :=
  ∃ t, Held (BodyOf reader) store t (.ref a) ∧ t.pendings = []

theorem Store.Offers.current (offers : store.Offers reader a) :
    ∃ u, Held .none store u (.ref a) ∧ u.pendings = [] := by
  obtain ⟨t, held, clear⟩ := offers
  exact held.current BodyOf.pendings_eq clear

theorem Store.Offers.later (offers : store.Offers reader a) (settle : CellsSettle reader store store') :
    store'.Offers reader a := by
  obtain ⟨t, held, clear⟩ := offers
  exact ⟨t, held.mono settle.refines, clear⟩

/-- Two constructs are in a workspace, and no cell can be reached from both. -/
structure Abreast (reader : Reader) (w : Workspace) (a b : Nat) : Prop where
  closed : w.store.ClosedFrom 0
  apart : w.store.Apart a b
  first : w.store.Offers reader a
  second : w.store.Offers reader b

theorem Abreast.later (abreast : Abreast reader w a b) (working : Working reader w w') :
    Abreast reader w' a b := by
  induction working with
  | refl => exact abreast
  | tail _ step ih =>
    have settle := step.cells ih.closed
    exact ⟨step.closed ih.closed, step.apart ih.closed ih.apart, ih.first.later settle,
      ih.second.later settle⟩

/-! ### Texts -/

/-- A body that one text waits for is not in the other construct. -/
theorem Abreast.force_frame (abreast : Abreast reader w a b)
    (asked : w.store.text (.ref b) = .error (.pending k)) :
    (perform (force k) reader w).2.store.text (.ref a) = w.store.text (.ref a) := by
  rcases force_effect reader abreast.closed k with same | ⟨body, gets⟩
  · rw [same]
  · obtain ⟨first, second, one, two, disjoint⟩ := abreast.apart
    obtain ⟨t, held, -⟩ := abreast.first.current
    obtain ⟨u, waiting, clear⟩ := abreast.second.current
    have inside : second k := waiting.text_pending clear two.closes two.into asked
    refine held.text_frame one.closes one.into (fun id member => ?_) gets.larger
    apply gets.others id (one.present id member)
    rintro rfl
    exact disjoint id member inside

theorem Abreast.observe_frame (abreast : Abreast reader w a b) (times : Nat) :
    (perform (observeUpTo (fun store => store.text (.ref b)) times) reader w).2.store.text (.ref a) =
      w.store.text (.ref a) := by
  have idle (w : Workspace) (x : Except Error String) :
      (perform (Work.ofExcept x) reader w).2 = w := by cases x <;> rfl
  induction times generalizing w with
  | zero => rw [observeUpTo, perform_bind_ok perform_store, idle]
  | succ times ih =>
    rw [observeUpTo, perform_bind_ok perform_store]
    split
    · rename_i k asked
      have frame := abreast.force_frame asked
      rcases forced : perform (force k) reader w with ⟨e | _, w₁⟩
      · rw [perform_bind_error forced]
        rwa [forced] at frame
      · have working : Working reader w w₁ := Keeps.after forced
        rw [perform_bind_ok forced, ih (abreast.later working)]
        rwa [forced] at frame
    · rw [idle]

theorem Abreast.print_frame (abreast : Abreast reader w a b) :
    (perform (print (.ref b)) reader w).2.store.text (.ref a) = w.store.text (.ref a) := by
  rw [print, observe, perform_bind_ok perform_store]
  exact abreast.observe_frame _

def AllAbreast (reader : Reader) (w : Workspace) (ids : List Nat) : Prop :=
  ids.Pairwise (Abreast reader w)

theorem AllAbreast.later {ids : List Nat} (abreast : AllAbreast reader w ids)
    (working : Working reader w w') : AllAbreast reader w' ids :=
  abreast.imp fun abreast => abreast.later working

theorem prints_frame {ids : List Nat} {texts : List String} (abreast : ∀ b ∈ ids, Abreast reader w a b)
    (printed : perform ((ids.map Slot.ref).mapM print) reader w = (.ok texts, w')) :
    w'.store.text (.ref a) = w.store.text (.ref a) := by
  induction ids generalizing w texts with
  | nil =>
    cases printed
    rfl
  | cons b ids ih =>
    rw [List.forall_mem_cons] at abreast
    rw [List.map_cons, List.mapM_cons] at printed
    obtain ⟨s, w₁, first, printed⟩ := bind_ok printed
    obtain ⟨rest, w₂, others, printed⟩ := bind_ok printed
    cases printed
    have working : Working reader w w₁ := Keeps.after first
    have here := abreast.1.print_frame
    rw [first] at here
    rw [ih (fun b member => (abreast.2 b member).later working) others, here]

/-- Texts that are printed one after the other are all there in the end. -/
theorem AllAbreast.prints {ids : List Nat} {texts : List String} (abreast : AllAbreast reader w ids)
    (printed : perform ((ids.map Slot.ref).mapM print) reader w = (.ok texts, w')) :
    (ids.map Slot.ref).mapM w'.store.text = .ok texts := by
  induction ids generalizing w texts with
  | nil =>
    cases printed
    rfl
  | cons a ids ih =>
    obtain ⟨others, rest⟩ := List.pairwise_cons.mp abreast
    rw [List.map_cons, List.mapM_cons] at printed
    obtain ⟨s, w₁, first, printed⟩ := bind_ok printed
    obtain ⟨texts, w₂, after, printed⟩ := bind_ok printed
    cases printed
    have working : Working reader w w₁ := Keeps.after first
    have answer : w₁.store.text (.ref a) = .ok s := observe_answer first
    have stays := prints_frame (fun b member => (others b member).later working) after
    rw [List.map_cons, List.mapM_cons, stays, answer, ih (AllAbreast.later rest working) after]
    rfl

end SwanModel
