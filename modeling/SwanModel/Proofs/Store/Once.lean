import SwanModel.Proofs.Language.Total
import SwanModel.Proofs.Store.Settling

/-!
# Bodies are converted once

A conversion of a body that fails leaves the operator waiting, and each later one goes the same way
as one right after parsing. A conversion that succeeds is the last.
-/

namespace SwanModel

open Work

variable {reader : Reader} {store : Store} {w w' v : Workspace} {id : Nat} {tree : ParseTree}
  {t : Term} {slot : Slot} {form : Form} {slots : List Slot} {owner : Owner}

/-! ### Reading a body -/

def Store.body? (store : Store) (id : Nat) : Option Slot := store.place? [Operator.bodyIndex] (.ref id)

theorem Store.body?_eq (found : store.cell? id = some (.node form slots owner)) :
    store.body? id = slots[Operator.bodyIndex]? := by
  simp only [Store.body?, Store.place?, Store.child?, found]
  cases slots[Operator.bodyIndex]? <;> rfl

theorem mapM_gives {f : Slot → Except Error Term} (each : ∀ slot ∈ slots, Succeeds (f slot))
    (g : List Term → Term) : ∃ ts, (do return g (← slots.mapM f)) = Except.ok (g ts) := by
  obtain ⟨ts, made⟩ := (Succeeds.mapM each).ok
  refine ⟨ts, ?_⟩
  rw [made]
  rfl

theorem viewInside_succeeds (closed : store.ClosedFrom 0) (levels : Nat) (outer : List Nat) {slot : Slot}
    (within : slot.Within 0 store.cells.size) : Succeeds (store.viewInside levels outer slot) := by
  induction levels generalizing outer slot with
  | zero => cases slot <;> exact ⟨⟨_, rfl⟩⟩
  | succ levels ih =>
    cases slot with
    | atom => exact ⟨⟨_, rfl⟩⟩
    | delayed => exact ⟨⟨_, rfl⟩⟩
    | ref id =>
      have inside : id < store.cells.size := within.2
      have found : store.cell? id = some store.cells[id] := by simp [Store.cell?, inside]
      have members := closed (Nat.zero_le _) found
      rw [Store.viewInside, found]
      split
      · infer_instance
      · cases cell : store.cells[id] with
        | list items =>
          rw [cell] at members
          exact ⟨(mapM_gives (fun slot member =>
            ih _ (members slot member)) Term.list).imp' _ fun _ made => made⟩
        | node form slots owner =>
          rw [cell] at members
          refine ⟨(mapM_gives (fun slot member => ?_) (Term.node form)).imp' _ fun _ made => made⟩
          split
          · infer_instance
          · exact ih _ (members slot member)

theorem view_construct (closed : store.ClosedFrom 0)
    (found : store.cell? id = some (.node form slots owner)) :
    ∃ parts, store.view (.ref id) = .ok (.node form parts) := by
  rw [Store.view, Store.viewInside, found]
  refine mapM_gives (fun slot member => ?_) (Term.node form)
  split
  · infer_instance
  · exact viewInside_succeeds closed _ _ (closed (Nat.zero_le _) found slot member)

theorem body_property : (Form.decl .operator).property? "body" =
    some (Property.part Operator.bodyIndex) := rfl

theorem perform_body (reader : Reader) (closed : w.store.ClosedFrom 0)
    (found : w.store.cell? id = some (.node (.decl .operator) slots owner)) :
    perform (property "body" (.ref id)) reader w =
      perform (slotAt id [Operator.bodyIndex] >>= fun slot => pure (.slot slot)) reader w := by
  obtain ⟨parts, shown⟩ := view_construct closed found
  rw [property, perform_bind_ok perform_store]
  simp only [Store.form?, found]
  rw [if_neg (by decide), body_property]
  dsimp only
  rw [readProperty, perform_bind_ok (observe_ok (a := Found.stored [Operator.bodyIndex]) ?_)]
  · rw [shown]
    rfl

theorem body_computed (reader : Reader) (closed : w.store.ClosedFrom 0)
    (found : w.store.cell? id = some (.node (.decl .operator) slots owner))
    (body : slots[Operator.bodyIndex]? = some slot) (computed : ∀ d, slot ≠ .delayed d) :
    perform (property "body" (.ref id)) reader w = (.ok (.slot slot), w) := by
  have place : w.store.place? [Operator.bodyIndex] (.ref id) = some slot :=
    (Store.body?_eq found).trans body
  rw [perform_body reader closed found, perform_bind, slotAt, perform_bind_ok perform_store, place]
  cases slot with
  | delayed d => exact absurd rfl (computed d)
  | _ => rfl

theorem body_forced (reader : Reader) (closed : w.store.ClosedFrom 0)
    (found : w.store.cell? id = some (.node (.decl .operator) slots owner)) {d : Delayed}
    (delayed : slots[Operator.bodyIndex]? = some (.delayed d)) :
    perform (property "body" (.ref id)) reader w = match perform (force id) reader w with
      | (.ok _, w') => (.ok (.slot ((w'.store.body? id).getD default)), w')
      | (.error e, w') => (.error e, w') := by
  have place : w.store.place? [Operator.bodyIndex] (.ref id) = some (.delayed d) :=
    (Store.body?_eq found).trans delayed
  rw [perform_body reader closed found, perform_bind, slotAt, perform_bind_ok perform_store, place,
    perform_bind]
  rcases perform (force id) reader w with ⟨_ | _, _⟩ <;> rfl

/-! ### Use of a workspace -/

/-- What a workspace is used for. -/
inductive Access where
  /-- A parser is called, and what it gives goes into the store. -/
  | parse (call : Call)
  /-- A property of a thing is read. -/
  | property (name : String) (id : Nat)
  /-- The text of a thing is asked for. -/
  | text (id : Nat)

/-- Has a parser called and puts what it gives into the store. -/
def Work.obtain (call : Call) : Work Slot := do
  load (← ofConversion (call.task.parse call.parser call.source)).1

/-- What an access does. What it gives is not looked at here. -/
def Access.work : Access → Work Unit
  | .parse call => do let _ ← obtain call
  | .property name id => do let _ ← Work.property name (.ref id)
  | .text id => do let _ ← print (.ref id)

/-- The workspace behind some accesses, each whether it fails or not. -/
def Workspace.after (reader : Reader) (w : Workspace) (accesses : List Access) : Workspace :=
  accesses.foldl (fun w access => (perform (settle access.work) reader w).2) w

theorem Workspace.after_append (reader : Reader) (w : Workspace) (first second : List Access) :
    w.after reader (first ++ second) = (w.after reader first).after reader second := List.foldl_append

instance (call : Call) : Keeps Settling (obtain call) := by unfold obtain; infer_instance

instance (access : Access) : Keeps Settling access.work := by
  cases access <;> unfold Access.work <;> infer_instance

theorem keeps_after {R : Reader → Workspace → Workspace → Prop} [Lasting R]
    [∀ lines, Keeps R (Work.log lines)] [∀ access : Access, Keeps R access.work] (reader : Reader)
    (w : Workspace) (accesses : List Access) :
    R reader w (w.after reader accesses) := by
  induction accesses generalizing w with
  | nil => exact Lasting.refl reader w
  | cons access rest ih => exact Lasting.trans (Keeps.keeps (x := settle access.work) reader w) (ih _)

theorem settles_after (reader : Reader) (closed : w.store.ClosedFrom 0) (accesses : List Access) :
    Settles reader w (w.after reader accesses) := keeps_after (R := Settling) reader w accesses closed

/-! ### Operators that a parser gives -/

def Store.declarations (store : Store) (slot : Slot) : List Slot :=
  match store.child? slot 2 with
  | some declared => (store.members declared).toOption.getD []
  | none => []

def Store.operator? (store : Store) : Slot → Option Nat
  | .ref id => if store.form? (.ref id) = some (.decl .operator) then some id else none
  | _ => none

/-- The operators at a slot: those that a module declares, or the one that is there itself. -/
def Store.operators (store : Store) (slot : Slot) : List Nat :=
  match store.form? slot with
  | some (.module .body) | some (.module .interface) =>
    (store.declarations slot).filterMap store.operator?
  | _ => (store.operator? slot).toList

structure Store.Waits (store : Store) (id : Nat) (tree : ParseTree) : Prop where
  form : store.form? (.ref id) = some (.decl .operator)
  body : store.body? id = some (.delayed (.tree tree))

theorem Store.form?_ref (form' : store.form? (.ref id) = some form) :
    ∃ slots owner, store.cell? id = some (.node form slots owner) := by
  unfold Store.form? at form'
  dsimp only at form'
  split at form'
  · rename_i found
    cases form'
    exact ⟨_, _, found⟩
  · cases form'

theorem Store.Waits.cell (waits : store.Waits id tree) : ∃ slots owner,
    store.cell? id = some (.node (.decl .operator) slots owner) ∧
      slots[Operator.bodyIndex]? = some (.delayed (.tree tree)) := by
  obtain ⟨slots, owner, found⟩ := Store.form?_ref waits.form
  exact ⟨slots, owner, found, (Store.body?_eq found).symm.trans waits.body⟩

/-- An operator that is held as a parser gives it waits for its body. -/
theorem Held.waits (held : Held .none store t (.ref id)) (waits : t.Waits)
    (isOperator : store.form? (.ref id) = some (.decl .operator)) : ∃ tree, store.Waits id tree := by
  obtain ⟨slots, owner, found⟩ := Store.form?_ref isOperator
  cases held with
  | list cell => cases found.symm.trans cell
  | node cell members =>
    obtain ⟨rfl, rfl, -⟩ := Cell.node.inj (Option.some.inj (found.symm.trans cell))
    cases waits with
    | operator body => exact ⟨_, isOperator, (Store.body?_eq found).trans (members.delayed body)⟩
    | other simple => cases simple
  | computed stands => exact stands.elim

theorem Store.operator?_eq (found : store.operator? slot = some id) :
    slot = .ref id ∧ store.form? (.ref id) = some (.decl .operator) := by
  unfold Store.operator? at found
  split at found
  · split at found
    · rename_i isOperator
      cases found
      exact ⟨rfl, isOperator⟩
    · cases found
  · cases found

theorem HeldAll.mem {body : Bodies} {ts : List Term} (held : HeldAll body store ts slots)
    (inside : slot ∈ slots) : ∃ t ∈ ts, Held body store t slot := by
  induction ts generalizing slots with
  | nil =>
    cases held
    cases inside
  | cons t ts ih =>
    cases held with
    | cons head tail =>
      rcases List.mem_cons.mp inside with rfl | inside
      · exact ⟨t, List.mem_cons_self, head⟩
      · obtain ⟨u, member, held⟩ := ih tail inside
        exact ⟨u, List.mem_cons_of_mem t member, held⟩

theorem Held.form?_eq {parts : List Term} (held : Held .none store (.node form parts) slot) :
    store.form? slot = some form := by
  cases held with
  | plain plain => cases plain
  | node cell => simp [Store.form?, cell]

theorem Held.operators_eq (held : Held .none store t slot) (waits : t.Waits) :
    store.operators slot = (store.operator? slot).toList := by
  have others : ∀ kind : ModuleKind, store.form? slot ≠ some (.module kind.form) := by
    intro kind isModule
    cases waits with
    | absent =>
      cases held
      cases isModule
    | operator =>
      rw [held.form?_eq] at isModule
      cases isModule
    | other simple =>
      rw [held.form?_eq] at isModule
      cases isModule
      cases kind <;> cases simple
  unfold Store.operators
  split
  · rename_i isModule
    exact absurd isModule (others .body)
  · rename_i isModule
    exact absurd isModule (others .interface)
  · rfl

theorem Held.operators_module {kind : ModuleKind} {name : Term} {uses others : List Term}
    (held : Held .none store (.node (.module kind.form) [name, .list uses, .list others]) slot) :
    ∃ items, HeldAll .none store others items ∧
      store.operators slot = items.filterMap store.operator? := by
  have isModule := held.form?_eq
  cases held with
  | plain plain => cases plain
  | node cell members =>
    rename_i id _ _
    obtain _ | ⟨_, _ | ⟨_, _ | ⟨declared, ⟨⟩⟩⟩⟩ := members
    cases declared with
    | plain plain => cases plain
    | list listCell held =>
      rename_i _ items
      refine ⟨items, held, ?_⟩
      have declarations : store.declarations (.ref id) = items := by
        simp [Store.declarations, Store.child?, cell, Store.members, listCell, Except.toOption]
      cases kind <;> simp only [Store.operators, isModule, ModuleKind.form, declarations]

theorem operators_wait (held : Held .none store t slot) (parsed : t.Parsed)
    (declared : id ∈ store.operators slot) : ∃ tree, store.Waits id tree := by
  cases parsed with
  | construct waits =>
    rw [held.operators_eq waits, Option.mem_toList] at declared
    obtain ⟨rfl, isOperator⟩ := Store.operator?_eq declared
    exact held.waits waits isOperator
  | module each =>
    obtain ⟨items, members, operators⟩ := held.operators_module
    rw [operators] at declared
    obtain ⟨item, inside, found⟩ := List.mem_filterMap.mp declared
    obtain ⟨rfl, isOperator⟩ := Store.operator?_eq found
    obtain ⟨d, member, held⟩ := members.mem inside
    exact held.waits (each d member) isOperator

/-! ### Operators in the course of time -/

structure Store.Has (reader : Reader) (store : Store) (id : Nat) (t : Term) (slot : Slot) : Prop where
  form : store.form? (.ref id) = some (.decl .operator)
  body : store.body? id = some slot
  isBody : IsBody reader store id t slot

theorem Store.Waits.of_cell (found : store.cell? id = some (.node (.decl .operator) slots owner))
    (delayed : slots[Operator.bodyIndex]? = some (.delayed (.tree tree))) : store.Waits id tree where
  form := by simp [Store.form?, found]
  body := (Store.body?_eq found).trans delayed

theorem Store.Has.of_cell (found : store.cell? id = some (.node (.decl .operator) slots owner))
    (body : slots[Operator.bodyIndex]? = some slot) (isBody : IsBody reader store id t slot) :
    store.Has reader id t slot where
  form := by simp [Store.form?, found]
  body := (Store.body?_eq found).trans body
  isBody := isBody

/-- An operator that waits goes on waiting or gets its body. -/
theorem Store.Waits.later {store' : Store} (waits : store.Waits id tree)
    (settle : CellsSettle reader store store') :
    store'.Waits id tree ∨ ∃ t slot, BodyOf reader tree t ∧ store'.Has reader id t slot := by
  obtain ⟨slots, owner, found, delayed⟩ := waits.cell
  obtain ⟨_, found', change⟩ := settle.kept found
  cases change with
  | same => exact .inl (.of_cell found' delayed)
  | computed delayed' stands body =>
    obtain rfl : _ = tree := by simpa [delayed] using delayed'.symm
    exact .inr ⟨_, _, stands, .of_cell found' (body_of_set delayed' _) body⟩

theorem Store.Has.later {store' : Store} (has : store.Has reader id t slot)
    (settle : CellsSettle reader store store') : store'.Has reader id t slot := by
  obtain ⟨slots, owner, found⟩ := Store.form?_ref has.form
  have body := (Store.body?_eq found).symm.trans has.body
  obtain ⟨_, found', change⟩ := settle.kept found
  cases change with
  | same => exact .of_cell found' body (has.isBody.mono settle)
  | computed delayed =>
    rw [body] at delayed
    exact absurd (Option.some.inj delayed) (has.isBody.not_delayed _)

/-- An operator that waits is asked for its body: it gets what the conversion gives, or it goes on
waiting. -/
theorem force_waiting (reader : Reader) (waits : w.store.Waits id tree) :
    match perform (force id) reader w with
    | (.ok _, w') => ∃ t slot, (perform (convert .operatorBody tree) reader w.reading).1 = .ok t ∧
        w'.store.Has reader id t slot ∧
          w'.reading = (perform (convert .operatorBody tree) reader w.reading).2
    | (.error e, w') => (perform (convert .operatorBody tree) reader w.reading).1 = .error e ∧
        w'.store.Waits id tree ∧ w'.reading =
          (perform (convert .operatorBody tree) reader w.reading).2 := by
  obtain ⟨slots, owner, found, delayed⟩ := waits.cell
  have fresh := compute_fresh id tree reader w
  have kept := (fresh.old id (Store.lt_of_cell? found)).trans found
  rw [perform_force found delayed]
  rcases computed : perform (compute id (.tree tree)) reader w with ⟨e | slot, w'⟩
  · rw [computed] at fresh kept
    exact ⟨compute_failed computed, .of_cell kept delayed, fresh.reading⟩
  · rw [computed] at fresh kept
    obtain ⟨t, converted, -, body⟩ := compute_isBody found computed
    refine ⟨t, slot, converted, ?_, fresh.reading⟩
    exact .of_cell (Store.cell?_set_self _ (Store.lt_of_cell? kept)) (body_of_set delayed slot) (body _)

/-- What converting a body comes to: how it ends, what is read and what is logged. -/
structure Attempt where
  outcome : Except Error Term
  reads : List (ReadRule × String)
  logs : List LogLine

/-- The record of reading behind one more attempt. -/
def Attempt.Recorded (attempt : Attempt) (s s' : Reading) : Prop :=
  s'.reads = s.reads ++ attempt.reads ∧ s'.logs = s.logs ++ attempt.logs

/-- The conversion of a body goes the same way at all times, once a source was read. -/
theorem exists_attempt (reader : Reader) (tree : ParseTree) :
    ∃ attempt : Attempt, ∀ s : Reading, s.source.isSome →
      (perform (convert .operatorBody tree) reader s).1 = attempt.outcome ∧
        attempt.Recorded s (perform (convert .operatorBody tree) reader s).2 := by
  obtain ⟨outcome, reads, logs, ran⟩ :=
    Composed.timeless (x := convert .operatorBody tree) inferInstance reader
  refine ⟨⟨outcome, reads, logs⟩, fun s current => ?_⟩
  obtain ⟨name, current⟩ := Option.isSome_iff_exists.mp current
  obtain ⟨_, -, ran⟩ := ran s name current
  rw [ran]
  exact ⟨rfl, rfl, rfl⟩

/-- The body of an operator is computed: it is there to be looked at, belongs to the operator, and
reading it changes nothing. Nothing is left to be computed. -/
structure Converted (reader : Reader) (id : Nat) (t : Term) (slot : Slot) (v : Workspace) : Prop where
  body : IsBody reader v.store id t slot
  shown : t.isSettled = true → v.store.view slot = .ok t
  read : perform (property "body" (.ref id)) reader v = (.ok (.slot slot), v)
  final : perform (force id) reader v = (.ok (), v)

/-- An operator waits for its body: reading the body makes the attempt to convert it. If the attempt
fails the operator waits as before, and otherwise it has its body. -/
structure Unconverted (reader : Reader) (id : Nat) (tree : ParseTree) (attempt : Attempt)
    (v : Workspace) : Prop where
  waits : v.store.Waits id tree
  read : match perform (property "body" (.ref id)) reader v with
    | (.ok given, v') => ∃ t slot, attempt.outcome = .ok t ∧ given = .slot slot ∧
        Converted reader id t slot v' ∧ attempt.Recorded v.reading v'.reading
    | (.error e, v') => attempt.outcome = .error e ∧ v'.store.Waits id tree ∧
        attempt.Recorded v.reading v'.reading

theorem Store.Has.converted (closed : v.store.ClosedFrom 0) (has : v.store.Has reader id t slot) :
    Converted reader id t slot v := by
  obtain ⟨slots, owner, found⟩ := Store.form?_ref has.form
  have body := (Store.body?_eq found).symm.trans has.body
  refine ⟨has.isBody, fun settled => (has.isBody.held.to_none settled).view settled, ?_, ?_⟩
  · exact body_computed reader closed found body has.isBody.not_delayed
  · refine force_idle fun found' delayed => ?_
    obtain ⟨-, rfl, -⟩ := Cell.node.inj (Option.some.inj (found.symm.trans found'))
    exact has.isBody.not_delayed _ (Option.some.inj (body.symm.trans delayed))

theorem Store.Waits.unconverted {attempt : Attempt} (waits : v.store.Waits id tree)
    (closed : v.store.ClosedFrom 0)
    (outcome : (perform (convert .operatorBody tree) reader v.reading).1 = attempt.outcome)
    (recorded : attempt.Recorded v.reading (perform (convert .operatorBody tree) reader v.reading).2) :
    Unconverted reader id tree attempt v := by
  obtain ⟨slots, owner, found, delayed⟩ := waits.cell
  have settled : Settling reader v _ := Keeps.keeps (x := force id) reader v
  have forced := force_waiting reader waits
  refine ⟨waits, ?_⟩
  rw [body_forced reader closed found delayed]
  rcases ran : perform (force id) reader v with ⟨e | done, v'⟩
  · rw [ran, outcome] at forced
    obtain ⟨failed, waits', reading⟩ := forced
    exact ⟨failed, waits', by rwa [reading]⟩
  · rw [ran, outcome] at forced
    rw [ran] at settled
    obtain ⟨t, slot, converted, has, reading⟩ := forced
    refine ⟨t, slot, converted, ?_, has.converted (settled closed).closed, by rwa [reading]⟩
    rw [has.body]
    rfl

def Store.isWaiting (store : Store) (id : Nat) : Bool :=
  match store.body? id with
  | some (.delayed _) => true
  | _ => false

/-- How often the body of an operator is converted in the course of some accesses. -/
def Workspace.conversions (reader : Reader) (id : Nat) : Workspace → List Access → Nat
  | _, [] => 0
  | w, access :: rest =>
    let w' := w.after reader [access]
    (if w.store.isWaiting id && !w'.store.isWaiting id then 1 else 0) + w'.conversions reader id rest

theorem Store.Waits.isWaiting (waits : store.Waits id tree) : store.isWaiting id = true := by
  rw [Store.isWaiting, waits.body]

theorem Store.Has.isWaiting (has : store.Has reader id t slot) : store.isWaiting id = false := by
  rw [Store.isWaiting, has.body]
  cases slot with
  | delayed d => exact absurd rfl (has.isBody.not_delayed d)
  | _ => rfl

theorem conversions_of_has (closed : w.store.ClosedFrom 0) (has : w.store.Has reader id t slot)
    (accesses : List Access) : w.conversions reader id accesses = 0 := by
  induction accesses generalizing w with
  | nil => rfl
  | cons access rest ih =>
    have next := settles_after reader closed [access]
    rw [Workspace.conversions, has.isWaiting, ih next.closed (has.later next.cells)]
    rfl

theorem conversions_le_one (closed : w.store.ClosedFrom 0) (waits : w.store.Waits id tree)
    (accesses : List Access) : w.conversions reader id accesses ≤ 1 := by
  induction accesses generalizing w with
  | nil => exact Nat.zero_le 1
  | cons access rest ih =>
    have next := settles_after reader closed [access]
    rw [Workspace.conversions]
    rcases waits.later next.cells with waits' | ⟨t, slot, -, has⟩
    · rw [waits'.isWaiting]
      simpa using ih next.closed waits'
    · -- The first access may be the one that converts the body, and then no other is.
      rw [conversions_of_has next.closed has]
      split <;> decide

theorem BodyOf.outcome (stands : BodyOf reader tree t) {s : Reading} (current : s.source.isSome) :
    (perform (convert .operatorBody tree) reader s).1 = .ok t := by
  obtain ⟨_, _, converted⟩ := stands
  obtain ⟨_, again, -⟩ := Composed.repeatable inferInstance s converted fun _ => current
  rw [again]

theorem obtain_ok {call : Call} (obtained : perform (obtain call) reader w = (.ok slot, w')) :
    ∃ t : Term, t.Parsed ∧ Held .none w'.store t slot ∧ w'.reading.source.isSome := by
  obtain ⟨result, w₁, parsed, loaded⟩ := bind_ok obtained
  have current := call.task.parse_source_isSome call.parser call.source reader w.reading
  rw [perform_ofConversion] at parsed
  obtain ⟨given, rfl⟩ := Prod.mk.inj parsed
  obtain ⟨-, lasts, -⟩ := (load_spec result.1 reader _).of_ok loaded
  have fresh := load_fresh result.1 reader
    { w with reading := (perform (call.task.parse call.parser call.source) reader w.reading).2 }
  rw [loaded] at fresh
  refine ⟨result.1, Task.parse_parsed (Prod.ext given rfl), lasts (.refl _), ?_⟩
  rwa [fresh.reading]

/-- The body of an operator is converted at most once, and always as it would have been converted at
first: whatever is done, the operator waits for its body as it did then, or it has its body for
good. -/
def ConvertedOnce (reader : Reader) (id : Nat) (w : Workspace) : Prop :=
  ∃ tree attempt, (perform (convert .operatorBody tree) reader w.reading).1 = attempt.outcome ∧
    attempt.Recorded w.reading (perform (convert .operatorBody tree) reader w.reading).2 ∧
    Unconverted reader id tree attempt w ∧
    ∀ accesses, w.conversions reader id accesses ≤ 1 ∧
      (Unconverted reader id tree attempt (w.after reader accesses) ∨
        ∃ t slot, attempt.outcome = .ok t ∧
          ∀ later, Converted reader id t slot (w.after reader (accesses ++ later)))

theorem Store.Waits.convertedOnce (waits : w.store.Waits id tree) (closed : w.store.ClosedFrom 0)
    (current : w.reading.source.isSome) : ConvertedOnce reader id w := by
  -- The attempt is fixed by the tree and the reader, so the one made at first is the one made later.
  obtain ⟨attempt, always⟩ := exists_attempt reader tree
  obtain ⟨outcome, recorded⟩ := always w.reading current
  refine ⟨tree, attempt, outcome, recorded, waits.unconverted closed outcome recorded,
    fun accesses => ?_⟩
  refine ⟨conversions_le_one closed waits accesses, ?_⟩
  have settled : Settles reader w (w.after reader accesses) := settles_after reader closed accesses
  rcases waits.later settled.cells with waits | ⟨t, slot, stands, has⟩
  · obtain ⟨outcome', recorded'⟩ := always _ (settled.current current)
    exact .inl (waits.unconverted settled.closed outcome' recorded')
  · refine .inr ⟨t, slot, outcome.symm.trans (stands.outcome current), fun later => ?_⟩
    have after : Settles reader (w.after reader accesses) _ := settles_after reader settled.closed later
    rw [Workspace.after_append]
    exact (has.later after.cells).converted after.closed

theorem closed_after (reader : Reader) (accesses : List Access) :
    (({} : Workspace).after reader accesses).store.ClosedFrom 0 := by
  have empty : ({} : Workspace).store.ClosedFrom 0 := Store.closedFrom_size {}
  exact (settles_after reader empty accesses).closed

/-- Whatever was done before, the body of an operator that a call gives is converted at most once,
and as it would have been at first. -/
theorem bodies_are_converted_once (reader : Reader) (before : List Access) (call : Call)
    {slot : Slot} {w : Workspace}
    (obtained : perform (obtain call) reader (({} : Workspace).after reader before) = (.ok slot, w))
    {id : Nat} (declared : id ∈ w.store.operators slot) : ConvertedOnce reader id w := by
  obtain ⟨t, parsed, held, current⟩ := obtain_ok obtained
  obtain ⟨tree, waits⟩ := operators_wait held parsed declared
  have settled : Settling reader _ w := Keeps.after obtained
  exact waits.convertedOnce (settled (closed_after reader before)).closed current

def keptOperatorTree (text : String) : ParseTree :=
  .node none [] [("CallSize", .list []), ("CallPragmas", .list []),
    ("CallOp", .node (some "ORawPrefix") [.protectedText (.text text) (.text "text")] [])]

def callersTree : ParseTree :=
  let declarations := ["known", "unknown"].map fun text =>
    operatorTree (callTree (keptOperatorTree text))
  .node none [.node none [] [("MDecls", .list declarations)], .absent] []

def callersReader : Reader :=
  let block : ParseTree :=
    .node none [] [("OIBCalled", .node (some "CallOperator") [transposeTree "12"] [])]
  .ofTable [((.body, "callers"), ⟨[], .tree callersTree⟩),
    ((.operatorBlock, "known"), ⟨[], .tree block⟩)]

def placeOf : Except Error Slot → Option Nat
  | .ok (.ref id) => some id
  | _ => none

theorem placeOf_eq {x : Except Error Slot × Workspace} (found : placeOf x.1 = some id) :
    x = (.ok (.ref id), x.2) := by
  refine Prod.ext ?_ rfl
  unfold placeOf at found
  split at found
  · rename_i given
    cases found
    exact given
  · cases found

/-- One of two operators gets its body, and the other fails and waits. -/
theorem callers_are_converted_once :
    let start := ({} : Workspace).after callersReader [.parse ⟨2, .fragment .expr, .ofText "x" ""⟩]
    ∃ w, perform (obtain ⟨1, .module .body, .ofText "callers" "m"⟩) callersReader start =
      (.ok (.ref 22), w) ∧ w.store.operators (.ref 22) = [12, 20] ∧
        ConvertedOnce callersReader 12 w ∧ ConvertedOnce callersReader 20 w ∧
      (perform (property "body" (.ref 12)) callersReader w).1.isOk = true ∧
      (perform (property "body" (.ref 20)) callersReader w).1.isOk = false := by
  intro start
  have obtained : perform (obtain ⟨1, .module .body, .ofText "callers" "m"⟩) callersReader start =
      (.ok (.ref 22), _) :=
    placeOf_eq (by decide +kernel)
  have operators : (perform (obtain ⟨1, .module .body, .ofText "callers" "m"⟩) callersReader
      start).2.store.operators (.ref 22) = [12, 20] := by decide +kernel
  refine ⟨_, obtained, operators, ?_, ?_, by decide +kernel, by decide +kernel⟩
  · exact bodies_are_converted_once callersReader _ _ obtained (by simp [operators])
  · exact bodies_are_converted_once callersReader _ _ obtained (by simp [operators])

end SwanModel
