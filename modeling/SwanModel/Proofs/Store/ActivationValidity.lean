import SwanModel.Proofs.Store.FullPath
import SwanModel.Proofs.Store.HasBody

/-!
# Whether if-activations are valid

The check asks for a condition in the last branch, and conversions make that branch without one.
-/

namespace SwanModel

open Work

variable {reader : Reader} {store : Store} {w v : Workspace} {id : Nat} {t : Term} {slot : Slot}
  {form : Form} {parts branches : List Term} {levels : Nat} {outer : List Nat}

/-! ### The check -/

def SeenBranch (guarded : Bool) (shown : Term) : Prop :=
  ∃ parts, shown = .node (.equation .ifBranch) parts ∧ (partAt parts 0).isAbsent = !guarded

def Activation.AreBranches (branches : List Term) : Prop :=
  ∀ t ∈ branches, ∃ condition body, t = Activation.branch condition body

def Activation.guards (branches : List Term) : List Bool :=
  branches.map fun t => !(partAt t.children 0).isAbsent

/-- What the check says of branches, of which is known whether they have conditions. -/
def Activation.verdict (guards : List Bool) : Except Error Bool :=
  if guards = [true, true] then .ok true
  else if 2 < guards.length ∧ guards.head? = some true ∧
    guards.getLast? = some true then .error .missingMember
  else .ok false

theorem SeenBranch.condition {guarded : Bool} {shown : Term} (seen : SeenBranch guarded shown) :
    ∃ condition, Activation.condition shown = .ok condition ∧ condition.isAbsent = !guarded := by
  obtain ⟨parts, rfl, given⟩ := seen
  exact ⟨_, rfl, given⟩

theorem getLast_seen {guards : List Bool} {shown : List Term}
    (seen : List.Forall₂ SeenBranch guards shown) {guard : Bool} (last : guards.getLast? = some guard) :
    ∃ branch, shown.getLast? = some branch ∧ SeenBranch guard branch := by
  induction seen with
  | nil => cases last
  | @cons first branch guards shown head tail ih =>
    cases tail with
    | nil =>
      cases last
      exact ⟨branch, rfl, head⟩
    | cons => exact ih last

theorem isValid_eq {guards : List Bool} {shown : List Term}
    (seen : List.Forall₂ SeenBranch guards shown) :
    Activation.isValid (.list shown) = (Activation.verdict guards).map .truth := by
  cases seen with
  | nil => rfl
  | @cons firstGuard first _ _ head tail =>
    cases tail with
    | nil => cases firstGuard <;> rfl
    | @cons secondGuard second guards shown next rest =>
      obtain ⟨lastGuard, isLast⟩ :
          ∃ guard, (firstGuard :: secondGuard :: guards).getLast? = some guard :=
        ⟨_, List.getLast?_eq_some_getLast (by simp)⟩
      obtain ⟨last, lastShown, seenLast⟩ := getLast_seen (.cons head (.cons next rest)) isLast
      obtain ⟨condition, found, given⟩ := head.condition
      obtain ⟨condition', found', given'⟩ := seenLast.condition
      simp only [Activation.isValid, Term.length, Term.members, bind, Except.bind, lastShown, found,
        found', given, given']
      cases firstGuard with
      | false =>
        have verdict : Activation.verdict (false :: secondGuard :: guards) = .ok false := by
          simp [Activation.verdict]
        rw [verdict]
        rfl
      | true =>
        cases lastGuard with
        | false =>
          have others : ¬ (secondGuard = true ∧ guards = []) := by
            rintro ⟨rfl, rfl⟩
            cases isLast
          have verdict : Activation.verdict (true :: secondGuard :: guards) = .ok false := by
            simp [Activation.verdict, isLast, others]
          rw [verdict]
          rfl
        | true =>
          cases rest with
          | nil =>
            cases isLast
            rfl
          | @cons thirdGuard _ others _ =>
            have verdict : Activation.verdict (true :: secondGuard :: thirdGuard :: others) =
                .error .missingMember := by
              simp [Activation.verdict, isLast]
            rw [verdict]
            rfl

/-! ### Branches in a store -/

section
variable {f : Slot → Except Error Term} (pending : ∀ d, f (.delayed d) = .ok (.pending id))
  (others : ∀ slot, (∀ d, slot ≠ .delayed d) →
  ∃ levels outer, f slot = store.viewInside levels outer slot)
include pending others

theorem Held.part_isAbsent {shown : Term} (held : Held .none store t slot) (seen : f slot = .ok shown) :
    shown.isAbsent = t.isAbsent := by
  cases held with
  | plain =>
    obtain ⟨levels, outer, same⟩ := others (.atom t) (by simp)
    have whole : store.viewInside levels outer (.atom t) = .ok t := by cases levels <;> rfl
    cases (same.trans whole).symm.trans seen
    rfl
  | @list inner =>
    obtain ⟨_, _, same⟩ := others (.ref inner) (by simp)
    exact viewInside_isAbsent (same.symm.trans seen)
  | @node inner =>
    obtain ⟨_, _, same⟩ := others (.ref inner) (by simp)
    exact viewInside_isAbsent (same.symm.trans seen)
  | delayed tree =>
    cases (pending (.tree tree)).symm.trans seen
    rfl
  | computed stands => exact stands.elim

theorem HeldAll.first_isAbsent {ts : List Term} {slots : List Slot}
    (held : HeldAll .none store (t :: ts) slots) (made : slots.mapM f = .ok parts) :
    (partAt parts 0).isAbsent = t.isAbsent := by
  cases held with
  | cons head tail =>
    obtain ⟨part, first, seen⟩ := mapM_getElem? (i := 0) made rfl
    have same : partAt parts 0 = part := by simp [partAt, List.getD_eq_getElem?_getD, first]
    rw [same]
    exact head.part_isAbsent pending others seen

end

theorem Held.seenBranch {condition body : Term}
    (held : Held .none store (Activation.branch condition body) slot)
    (inside : Inside store levels outer (Activation.branch condition body)) :
    ∃ shown, store.viewInside levels outer slot = .ok shown ∧
      SeenBranch (!condition.isAbsent) shown := by
  obtain ⟨shown, seen⟩ := held.viewInside_ok levels outer
  refine ⟨shown, seen, ?_⟩
  cases held with
  | plain plain => cases plain
  | node cell members =>
    obtain ⟨rest, rfl, outside⟩ := inside.step (.node cell members)
    rw [Store.viewInside, if_neg (by simpa using outside), cell] at seen
    obtain ⟨parts, made, rfl⟩ := mapped_ok seen
    refine ⟨parts, rfl, ?_⟩
    rw [Bool.not_not]
    refine members.first_isAbsent (fun _ => rfl) (fun slot ready => ?_) made
    cases slot with
    | delayed d => exact absurd rfl (ready d)
    | _ => exact ⟨_, _, rfl⟩

theorem HeldAll.seenBranches {slots : List Slot} (held : HeldAll .none store branches slots)
    (each : Activation.AreBranches branches)
    (inside : ∀ t ∈ branches, Inside store levels outer t) :
    ∃ shown, slots.mapM (store.viewInside levels outer) = .ok shown ∧
      List.Forall₂ SeenBranch (Activation.guards branches) shown := by
  induction branches generalizing slots with
  | nil =>
    cases held
    exact ⟨[], rfl, .nil⟩
  | cons t branches ih =>
    cases held with
    | cons head tail =>
      obtain ⟨condition, body, rfl⟩ := each t List.mem_cons_self
      obtain ⟨branch, first, seen⟩ := head.seenBranch (inside _ List.mem_cons_self)
      obtain ⟨shown, rest, others⟩ := ih tail (fun t member => each t (List.mem_cons_of_mem _ member))
        fun t member => inside t (List.mem_cons_of_mem _ member)
      refine ⟨branch :: shown, ?_, .cons seen others⟩
      rw [List.mapM_cons, first]
      simp only [bind, Except.bind, rest]
      rfl

theorem Held.seenActivation {rest : List Term}
    (held : Held .none store (.node form (.list branches :: rest)) (.ref id))
    (each : Activation.AreBranches branches) :
    ∃ shown others, store.view (.ref id) = .ok (.node form (.list shown :: others)) ∧
      List.Forall₂ SeenBranch (Activation.guards branches) shown := by
  have list : ∀ slot, Held .none store (.list branches) slot →
      Inside store store.cells.size [id] (.list branches) → (∀ d, slot ≠ .delayed d) ∧
        ∃ t, store.viewInside store.cells.size [id] slot = .ok t ∧ ∃ shown, t = .list shown ∧
          List.Forall₂ SeenBranch (Activation.guards branches) shown := by
    intro slot held inside
    cases held with
    | plain plain => cases plain
    | list cell members =>
      obtain ⟨levels, size, outside⟩ := inside.step (.list cell members)
      rw [size] at inside ⊢
      obtain ⟨shown, made, seen⟩ := members.seenBranches each fun t member =>
        inside.deeper (.list cell members) outside (sizeOf_item member)
      refine ⟨by simp, .list shown, ?_, shown, rfl, seen⟩
      rw [Store.viewInside, if_neg (by simpa using outside), cell]
      simp only [bind, Except.bind, made]
      rfl
  obtain ⟨_, others, viewed, shown, rfl, seen⟩ := held.view_first list
  exact ⟨shown, others, viewed, seen⟩

/-- An if-activation is asked whether it is valid: it answers or fails, and nothing changes. -/
def AnswersIsValid (reader : Reader) (id : Nat) (v : Workspace) (answer : Except Error Bool) : Prop :=
  perform (property "is_valid" (.ref id)) reader v = (answer.map fun b => .slot (.atom (.truth b)), v)

theorem verdict_definite (guards : List Bool) (k : Nat) :
    Activation.verdict guards ≠ .error (.pending k) := by
  unfold Activation.verdict
  split
  · simp
  · split <;> simp

theorem Held.answersIsValid {rest : List Term} (reader : Reader)
    (held : Held .none v.store (.node (.equation .ifActivation) (.list branches :: rest)) (.ref id))
    (each : Activation.AreBranches branches) :
    AnswersIsValid reader id v (Activation.verdict (Activation.guards branches)) := by
  obtain ⟨shown, others, viewed, seen⟩ := held.seenActivation each
  have known : (Form.equation .ifActivation).property? "is_valid" =
    some (Property.value fun ps => Activation.isValid (partAt ps 0)) := rfl
  have stated : Property.value (fun ps => Activation.isValid (partAt ps 0)) (.list shown :: others) =
      (Activation.verdict (Activation.guards branches)).map fun b => .made (.truth b) := by
    rw [Property.value]
    change (Activation.isValid (.list shown)).map Found.made = _
    rw [isValid_eq seen]
    cases Activation.verdict (Activation.guards branches) <;> rfl
  exact (perform_property reader held.form?_eq known (by decide)).trans
    (readProperty_truth reader viewed stated (verdict_definite _))

/-! ### If-activations from trees -/

theorem Held.child {slot' : Slot} {i : Nat} (held : Held .none store t slot)
    (found : store.child? slot i = some slot') : ∃ u ∈ t.children, Held .none store u slot' := by
  cases held with
  | plain => cases found
  | list cell members =>
    simp only [Store.child?, cell] at found
    exact members.mem (List.mem_of_getElem? found)
  | node cell members =>
    simp only [Store.child?, cell] at found
    exact members.mem (List.mem_of_getElem? found)
  | delayed => cases found
  | computed stands => exact stands.elim

theorem Term.Made.child {u : Term} (made : t.Made) (inside : u ∈ t.children) : u.Made := by
  cases t with
  | list => exact made.members u inside
  | node => exact made.parts u inside
  | _ => cases inside

theorem Held.place {slot' : Slot} {place : List Nat} (held : Held .none store t slot) (made : t.Made)
    (found : store.place? place slot = some slot') : ∃ u, u.Made ∧ Held .none store u slot' := by
  induction place generalizing t slot with
  | nil =>
    cases found
    exact ⟨t, made, held⟩
  | cons i place ih =>
    obtain ⟨inner, child, found⟩ := Option.bind_eq_some_iff.mp found
    obtain ⟨u, inside, held⟩ := held.child child
    exact ih held (made.child inside) found

theorem verdict_of_open (guards : List Bool) : Activation.verdict (guards ++ [false]) = .ok false := by
  have last : (guards ++ [false]).getLast? ≠ some true := by simp
  have others : guards ++ [false] ≠ [true, true] := by
    intro same
    simp [same] at last
  rw [Activation.verdict, if_neg others, if_neg fun both => last both.2.2]

/-- An if-activation that is made has a last branch without a condition. -/
theorem Term.Made.answersIsValid (reader : Reader)
    (made : Term.Made (.node (.equation .ifActivation) parts))
    (held : Held .none v.store (.node (.equation .ifActivation) parts) (.ref id)) :
    AnswersIsValid reader id v (.ok false) := by
  cases made with
  | leaf leaf => cases leaf
  | node _ _ takes =>
    rcases takes with free | ⟨guarded, last, first, each⟩
    · cases free
    cases parts with
    | nil => cases first
    | cons part rest =>
      obtain rfl : part = .list (guarded ++ [Activation.branch .absent last]) := first
      have all : Activation.AreBranches (guarded ++ [Activation.branch .absent last]) := by
        rw [Activation.AreBranches, List.forall_mem_append, List.forall_mem_singleton]
        exact ⟨each, _, _, rfl⟩
      have guards : Activation.guards (guarded ++ [Activation.branch .absent last]) =
          Activation.guards guarded ++ [false] := by
        simp [Activation.guards, Activation.branch, Term.children, partAt, Term.isAbsent]
      have answers := held.answersIsValid reader all
      rwa [guards, verdict_of_open] at answers

theorem activation_of_described {tree : ParseTree}
    (described : tree.describedBy .ifActivation = true) (reader : Reader) (w : Workspace) :
    ∃ id w', perform (do load (← ofConversion (convert .ifActivation tree))) reader w =
      (.ok (.ref id), w') ∧ w'.store.form? (.ref id) = some (.equation .ifActivation) := by
  obtain ⟨t, converted, fits⟩ := convert_gives described reader w.reading
  obtain ⟨slot, w', loaded, lasts, -⟩ := (load_spec t reader w).ok (Fits.isLoadable fits)
  obtain ⟨parts, rfl⟩ : ∃ parts, t = .node (.equation .ifActivation) parts := by
    cases fits with
    | construct listed =>
      obtain rfl := List.mem_singleton.mp listed
      exact ⟨_, rfl⟩
  have held := lasts (.refl _)
  cases held with
  | plain plain => cases plain
  | @node id _ _ _ _ cell members =>
    refine ⟨id, w', ?_, Held.form?_eq (.node cell members)⟩
    rw [perform_bind_ok (ofConversion_ok converted), loaded]

theorem converted_activation {rule : Rule} {tree : ParseTree} {w' : Workspace} {place : List Nat}
    (loaded : perform (do load (← ofConversion (convert rule tree))) reader w = (.ok slot, w'))
    (found : w'.store.place? place slot = some (.ref id))
    (isForm : w'.store.form? (.ref id) = some (.equation .ifActivation)) :
    AnswersIsValid reader id w' (.ok false) := by
  obtain ⟨t, s, converted, held⟩ := converted_held loaded
  have made : t.Made := Composed.made inferInstance ⟨reader, w.reading, s, converted⟩
  obtain ⟨u, made, held⟩ := held.place made found
  cases held with
  | list cell =>
    rw [Store.form?, cell] at isForm
    cases isForm
  | node cell members =>
    cases (Held.form?_eq (.node cell members)).symm.trans isForm
    exact made.answersIsValid reader (.node cell members)
  | computed stands => exact stands.elim

theorem built_activation (branches : List (Term × Term)) {w' : Workspace}
    (loaded : perform (load (.node (.equation .ifActivation)
      [.list (branches.map fun b => Activation.branch b.1 b.2)])) reader w = (.ok (.ref id), w')) :
    AnswersIsValid reader id w' (Activation.verdict (branches.map fun b => !b.1.isAbsent)) := by
  obtain ⟨-, lasts, -⟩ := (load_spec _ reader w).of_ok loaded
  have each : Activation.AreBranches (branches.map fun b => Activation.branch b.1 b.2) :=
    List.forall_mem_map.mpr fun b _ => ⟨b.1, b.2, rfl⟩
  have guards : Activation.guards (branches.map fun b => Activation.branch b.1 b.2) =
      branches.map fun b => !b.1.isAbsent := by
    simp [Activation.guards, Activation.branch, Term.children, partAt]
  have answers := (lasts (.refl _)).answersIsValid reader each
  rwa [guards] at answers

/-- A tree of an if-activation with its branches converts, to an if-activation that is not valid; no
if-activation inside what a tree converts to is valid; and of those that are built from branches the
valid ones have two, both with conditions, while the check breaks down if there are more with
conditions in the first and in the last. -/
theorem activations_answer_is_valid (reader : Reader) (w : Workspace) :
    (∀ tree : ParseTree, tree.describedBy .ifActivation = true → ∃ id w',
      perform (do load (← ofConversion (convert .ifActivation tree))) reader w = (.ok (.ref id), w') ∧
        w'.store.form? (.ref id) = some (.equation .ifActivation) ∧
          AnswersIsValid reader id w' (.ok false)) ∧
    (∀ rule tree slot w', perform (do load (← ofConversion (convert rule tree))) reader w =
      (.ok slot, w') → ∀ place id, w'.store.place? place slot = some (.ref id) →
        w'.store.form? (.ref id) = some (.equation .ifActivation) →
          AnswersIsValid reader id w' (.ok false)) ∧
    ∀ (branches : List (Term × Term)) id w',
      perform
          (load (.node (.equation .ifActivation)
            [.list (branches.map fun b => Activation.branch b.1 b.2)])) reader w = (.ok (.ref id), w') →
        AnswersIsValid reader id w' (Activation.verdict (branches.map fun b => !b.1.isAbsent)) := by
  refine ⟨fun tree described => ?_, fun _ _ _ _ loaded _ _ => converted_activation loaded,
    fun branches _ _ =>
    built_activation branches⟩
  obtain ⟨id, w', loaded, isForm⟩ := activation_of_described described reader w
  have here : w'.store.place? [] (.ref id) = some (.ref id) := rfl
  exact ⟨id, w', loaded, isForm, converted_activation loaded here isForm⟩

def emptyBranch : ParseTree := .node (some "IfteDataDef") [.node (some "SDEmpty") [] []] []

def guardedActivation (name : String) (last : ParseTree) : ParseTree :=
  let condition := .node (some "EId") [.list [.identifier (.text name) (.list [])]] []
  .node none [] [("IfThenElif",
    .list [.node none [.node (some "ExprWithSP") [condition, .absent] [], emptyBranch] []]),
    ("Else", last)]

def nestedActivation : ParseTree :=
  guardedActivation "c" (.node (some "IfteBlock") [guardedActivation "d" emptyBranch] [])

theorem ref_of_placeOf {found : Option Slot} (place : found.bind (placeOf ∘ .ok) = some id) :
    found = some (.ref id) := by
  obtain ⟨slot, rfl, place⟩ := Option.bind_eq_some_iff.mp place
  cases slot with
  | ref =>
    cases place
    rfl
  | _ => cases place

/-- Both if-activations of the nested one are not valid, and one that is built with two conditions
is. -/
theorem nested_activation_answers :
    let w :=
  (perform (do load (← ofConversion (convert .ifActivation nestedActivation))) Reader.none {}).2
    let built := (perform (load (.node (.equation .ifActivation)
      [.list ([(.text "c", .absent), (.text "d", .absent)].map fun b =>
        Activation.branch b.1 b.2)])) Reader.none {}).2
    nestedActivation.describedBy .ifActivation = true ∧
      (∃ id w', perform (do load (← ofConversion (convert .ifActivation nestedActivation)))
          Reader.none {} = (.ok (.ref id), w') ∧ AnswersIsValid Reader.none id w' (.ok false)) ∧
      w.store.place? [0, 1, 1, 0] (.ref 21) = some (.ref 17) ∧
        AnswersIsValid Reader.none 17 w (.ok false) ∧
      AnswersIsValid Reader.none 3 built (.ok true) := by
  intro w built
  obtain ⟨described, inside, direct⟩ := activations_answer_is_valid Reader.none {}
  have isDescribed : nestedActivation.describedBy .ifActivation = true := by decide +kernel
  obtain ⟨id, w', loaded, -, answers⟩ := described nestedActivation isDescribed
  have converted :
    perform (do load (← ofConversion (convert .ifActivation nestedActivation))) Reader.none {} =
      (.ok (.ref 21), w) := placeOf_eq (by decide +kernel)
  have found : w.store.place? [0, 1, 1, 0] (.ref 21) = some (.ref 17) :=
    ref_of_placeOf (by decide +kernel)
  have isActivation : w.store.form? (.ref 17) = some (.equation .ifActivation) := by decide +kernel
  exact ⟨isDescribed, ⟨id, w', loaded, answers⟩, found, inside _ _ _ _ converted _ _ found isActivation,
    direct [(.text "c", .absent), (.text "d", .absent)] 3 built (placeOf_eq (by decide +kernel))⟩

/-- An if-activation with a condition and a last branch without one is asked, and it answers that it
is not valid. -/
theorem guarded_activation_is_not_valid :
    let tree := guardedActivation "c" emptyBranch
    let w := (perform (do load (← ofConversion (convert .ifActivation tree))) Reader.none {}).2
    placeOf (perform (do load (← ofConversion (convert .ifActivation tree))) Reader.none {}).1 =
      some 10 ∧ w.store.form? (.ref 10) = some (.equation .ifActivation) ∧
        AnswersIsValid Reader.none 10 w (.ok false) :=
  ⟨by decide +kernel, rfl, rfl⟩

end SwanModel
