import SwanModel.Proofs.Store.Load
import SwanModel.Reading.Parse

/-!
# Terms that conversions make

`Term.Made` says of all constructs in a term that they can adopt what they have to adopt, and that
the last branch of an if-activation has no condition. Conversions make such terms, and they can be
loaded.
-/

namespace SwanModel

open Filling

variable {t : Term} {ts : List Term} {fillings : List Filling}

variable {form : Form} {args : List Term}

namespace Activation

def branch (condition body : Term) : Term := .node (.equation .ifBranch) [condition, body]

def EndsOpen (branches : Term) : Prop :=
  ∃ guarded last, branches = .list (guarded ++ [branch .absent last]) ∧
    ∀ t ∈ guarded, ∃ condition body, t = branch condition body

end Activation

@[reducible] def Form.isFree : Form → Bool
  | .equation .ifActivation => false
  | _ => true

class Holds (b : Bool) : Prop where
  holds : b = true

instance : Holds true := ⟨rfl⟩

def Form.Takes (form : Form) (parts : List Term) : Prop :=
  form.isFree = true ∨ Activation.EndsOpen (partAt parts 0)

/-- Whether a term is neither a list nor a construct, and does not stand for a body that is still to
come. -/
def Term.isLeaf : Term → Bool
  | .list _ | .node _ _ | .pending _ => false
  | _ => true

/-- The terms that conversions make. -/
inductive Term.Made : Term → Prop
  | leaf {t : Term} (leaf : t.isLeaf = true) : Made t
  | list {ts : List Term} (members : ∀ t ∈ ts, Made t) : Made (.list ts)
  | node {form : Form} {parts : List Term} (members : ∀ t ∈ parts, Made t)
      (adopts : ∀ adoption ∈ form.adoptions,
        adoption.isAllowed parts = true) (takes : form.Takes parts) :
      Made (.node form parts)

abbrev Term.AllMade (ts : List Term) : Prop := ∀ t ∈ ts, t.Made

theorem Term.Made.members (made : Term.Made (.list ts)) : Term.AllMade ts := by
  cases made with
  | leaf leaf => cases leaf
  | list members => exact members

theorem Term.Made.parts {parts : List Term} (made : Term.Made (.node form parts)) :
    Term.AllMade parts := by
  cases made with
  | leaf leaf => cases leaf
  | node members => exact members

theorem Term.areLoadable_iff : Term.areLoadable ts = true ↔ ∀ t ∈ ts, t.isLoadable = true := by
  induction ts with
  | nil => simp [Term.areLoadable]
  | cons t ts ih => simp [Term.areLoadable, ih]

theorem Term.Made.isLoadable (made : t.Made) : t.isLoadable = true := by
  induction made with
  | @leaf t leaf => cases t <;> first | rfl | cases leaf
  | list _ ih => exact Term.areLoadable_iff.mpr ih
  | node _ adopts _ ih =>
    simp only [Term.isLoadable, Bool.and_eq_true, List.all_eq_true]
    exact ⟨Term.areLoadable_iff.mpr ih, adopts⟩

theorem partAt_made (made : Term.AllMade args) (i : Nat) : (partAt args i).Made := by
  unfold partAt
  rw [List.getD_eq_getElem?_getD]
  cases found : args[i]? with
  | none => exact .leaf rfl
  | some t => exact made t (List.mem_of_getElem? found)

theorem emptyList_made : Term.Made (.list []) := .list (List.forall_mem_nil _)

theorem orEmpty_cases (args : List Term) (i : Nat) :
    (orEmpty args i).term args = partAt args i ∨ (orEmpty args i).term args = .list [] := by
  unfold orEmpty
  split
  · exact .inl rfl
  · exact .inr rfl

/-! ### Parts -/

theorem allBut_made (made : Term.AllMade args) (gaps : List Nat) :
    ∀ filling ∈ allBut gaps args, (filling.term args).Made := by
  intro filling inside
  obtain ⟨i, -, rfl⟩ := List.mem_map.mp inside
  split
  · rcases orEmpty_cases args i with same | empty
    · rw [same]
      exact partAt_made made i
    · rw [empty]
      exact emptyList_made
  · exact partAt_made made i

theorem fillLuid_made (filled : fillLuid args = .ok fillings) (made : Term.AllMade args) :
    ∀ filling ∈ fillings, (filling.term args).Made := by
  have given := partAt_made made 0
  unfold fillLuid at filled
  split at filled
  · split at filled <;> cases filled
    · simpa [Filling.term] using Term.Made.leaf rfl
    · simpa [Filling.term] using given
  · cases filled
  · rename_i found
    cases filled
    rw [found] at given
    have rest := fun t inside => given.members t (List.mem_cons_of_mem _ inside)
    simpa [Filling.term] using Term.Made.list rest
  · cases filled
    simpa [Filling.term] using given
  · cases filled

theorem fill_made (filled : form.fill args = .ok fillings) (made : Term.AllMade args) :
    ∀ filling ∈ fillings, (filling.term args).Made := by
  have most := allBut_made made
  unfold Form.fill at filled
  -- Most forms take their arguments. Some look at them first, and three make up a part.
  split at filled
  case h_1 =>
    unfold fillIdentifier at filled
    split at filled <;> cases filled
    exact most _
  case h_2 => exact fillLuid_made filled made
  case h_3 =>
    unfold fillClock at filled
    split at filled <;> cases filled
    exact most _
  case h_4 =>
    unfold fillLastDefault at filled
    dsimp only at filled
    split at filled <;> cases filled
    exact most _
  case h_5 =>
    cases filled
    rw [List.forall_mem_cons, List.forall_mem_singleton]
    exact ⟨partAt_made made 0, .leaf rfl⟩
  case h_18 =>
    cases filled
    simp only [List.forall_mem_append, List.forall_mem_singleton]
    exact ⟨most _, .leaf rfl⟩
  all_goals
    cases filled <;> exact most _

/-! ### Adoption -/

/-- What stands at a place is what was given, or an empty list where a list may be left out. -/
theorem partAt_allBut (gaps : List Nat) (args : List Term) (i : Nat) :
    partAt ((allBut gaps args).map (Filling.term args)) i = partAt args i ∨
      i ∈ gaps ∧ partAt ((allBut gaps args).map (Filling.term args)) i = .list [] := by
  by_cases inside : i < args.length
  · have part : partAt ((allBut gaps args).map (Filling.term args)) i =
        (if gaps.contains i then orEmpty args i else .given i).term args := by
      simp [partAt, allBut, inside]
    rw [part]
    split
    · rename_i gap
      exact (orEmpty_cases args i).imp_right fun empty => ⟨by simpa using gap, empty⟩
    · exact .inl rfl
  · exact .inl (by simp [partAt, allBut, inside])

/-- A form that adopts something takes its arguments as they are or lets lists be left out, but
never what it adopts itself. -/
theorem fill_of_adopting (adopts : form.adoptions ≠ []) :
    ∃ gaps, (∀ i ∈ gaps, .argument i ∉ form.adoptions) ∧
      ∀ args, form.fill args = .ok (allBut gaps args) := by
  cases form <;> rename_i form <;> cases form <;>
    first
    | exact absurd rfl adopts
    | exact ⟨_, by decide, fun _ => rfl⟩

/-- What can be adopted from the arguments of a new construct can be adopted from its parts. -/
theorem Adoption.isAllowed_of_check {gaps : List Nat} {adoption : Adoption}
    (kept : ∀ i ∈ gaps, adoption ≠ .argument i)
    (checked : adoption.check args ((allBut gaps args).map (Filling.term args)) = .ok ()) :
    adoption.isAllowed ((allBut gaps args).map (Filling.term args)) = true := by
  rw [Adoption.isAllowed, isOk_iff]
  cases adoption with
  | argument i =>
    rcases partAt_allBut gaps args i with same | ⟨gap, -⟩
    · rw [Adoption.check, same]
      exact checked
    · exact absurd rfl (kept i gap)
  | argumentMembers i =>
    rcases partAt_allBut gaps args i with same | ⟨-, empty⟩
    · rw [Adoption.check, same]
      exact checked
    · rw [Adoption.check, empty]
      rfl
  | partMembers i => exact checked

theorem build_ok (built : form.build args = .ok t) :
    ∃ fillings, form.fill args = .ok fillings ∧ t = .node form (fillings.map (Filling.term args)) ∧
      form.adoptions.forM (Adoption.check args (fillings.map (Filling.term args))) = .ok () := by
  unfold Form.build at built
  cases filled : form.fill args with
  | error e => simp [filled, bind, Except.bind] at built
  | ok fillings =>
    simp only [filled, bind, Except.bind] at built
    split at built
    · cases built
    · rename_i checked
      cases built
      exact ⟨fillings, rfl, rfl, checked⟩

theorem takes_of_fill (filled : form.fill args = .ok fillings) (takes : form.Takes args) :
    form.Takes (fillings.map (Filling.term args)) := by
  rcases takes with free | ends
  · exact .inl free
  · by_cases free : form.isFree = true
    · exact .inl free
    -- Only if-activations are left, which take their branches as they are.
    · unfold Form.isFree at free
      split at free
      · cases filled
        refine .inr ?_
        rcases partAt_allBut [] args 0 with same | ⟨gap, -⟩
        · rwa [same]
        · cases gap
      · exact absurd rfl free

theorem build_made (built : form.build args = .ok t) (takes : form.Takes args)
    (made : Term.AllMade args) : t.Made := by
  obtain ⟨fillings, filled, rfl, checked⟩ := build_ok built
  refine .node ?_ (fun adoption adopted => ?_) (takes_of_fill filled takes)
  · rw [List.forall_mem_map]
    exact fill_made filled made
  · obtain ⟨gaps, kept, fill⟩ := fill_of_adopting (List.ne_nil_of_mem adopted)
    cases filled.symm.trans (fill args)
    refine Adoption.isAllowed_of_check (fun i gap same => ?_) (forM_eq_ok.mp checked adoption adopted)
    exact kept i gap (same ▸ adopted)

mutual

theorem ofTree_made (tree : ParseTree) : (Term.ofTree tree).Made := by
  cases tree with
  | list items => exact .list (ofTrees_made items)
  | _ => exact .leaf rfl

theorem ofTrees_made (trees : List ParseTree) : Term.AllMade (Term.ofTrees trees) := by
  cases trees with
  | nil => exact List.forall_mem_nil _
  | cons tree trees =>
    rw [Term.ofTrees]
    exact List.forall_mem_cons.mpr ⟨ofTree_made tree, ofTrees_made trees⟩

end

theorem word_made {text : Term} (made : text.Made) (isName : Term) : (Term.word text isName).Made := by
  unfold Term.word
  split
  · split <;> exact .leaf rfl
  · exact made

theorem valueMember_made {value : Term} (given : t.valueMember = .ok value) (made : t.Made) :
    value.Made := by
  unfold Term.valueMember at given
  split at given
  case h_1 => cases given; exact .leaf rfl
  case h_9 => cases given
  case h_2 =>
    cases given
    exact word_made (partAt_made made.parts 0) _
  all_goals
    cases given
    exact partAt_made made.parts _

/-! ### Values with terms in them -/

/-- Values that may have terms in them. -/
class Carrier (α : Type) where
  /-- The terms in a value are made. -/
  Made : α → Prop

class Termless (α : Type) : Prop

class IsMade {α : Type} [Carrier α] (a : α) : Prop where
  made : Carrier.Made a

section
variable {α β : Type}

instance [Termless α] : Carrier α := ⟨fun _ => True⟩

instance : Termless ParseTree := ⟨⟩

instance : Termless String := ⟨⟩

instance : Termless Reader := ⟨⟩

instance : Termless Nat := ⟨⟩

instance : Termless PUnit := ⟨⟩

instance : Termless Int := ⟨⟩

instance : Termless Json := ⟨⟩

instance : Termless Information := ⟨⟩

instance [Termless α] : Termless (List α) := ⟨⟩

instance [Termless α] : Termless (Option α) := ⟨⟩

instance [Termless α] (a : α) : IsMade a := ⟨trivial⟩

instance [Carrier α] (a : {a : α // Carrier.Made a}) : IsMade a.val := ⟨a.property⟩

/-! Pairs -/

instance [Carrier α] [Carrier β] : Carrier (α × β) := ⟨fun p => Carrier.Made p.1 ∧ Carrier.Made p.2⟩

instance [Carrier α] [Carrier β] (a : α) (b : β) [first : IsMade a] [second : IsMade b] :
    IsMade (a, b) :=
  ⟨first.made, second.made⟩

instance [Carrier α] [Carrier β] (p : α × β) [both : IsMade p] : IsMade p.1 := ⟨both.made.1⟩

instance [Carrier α] [Carrier β] (p : α × β) [both : IsMade p] : IsMade p.2 := ⟨both.made.2⟩

/-! Terms -/

instance : Carrier Term := ⟨Term.Made⟩

instance : Carrier (List Term) := ⟨Term.AllMade⟩

instance : IsMade Term.absent := ⟨.leaf rfl⟩

instance (b : Bool) : IsMade (Term.truth b) := ⟨.leaf rfl⟩

instance (n : Int) : IsMade (Term.number n) := ⟨.leaf rfl⟩

instance (s : String) : IsMade (Term.text s) := ⟨.leaf rfl⟩

instance (tree : ParseTree) : IsMade (Term.raw tree) := ⟨.leaf rfl⟩

instance (text : Term) : IsMade (Term.pragma text) := ⟨.leaf rfl⟩

instance (c : Constant) : IsMade (Term.constant c) := ⟨.leaf rfl⟩

instance (ts : List Term) [all : IsMade ts] : IsMade (Term.list ts) := ⟨.list all.made⟩

instance (tree : ParseTree) : IsMade (Term.ofTree tree) := ⟨ofTree_made tree⟩

instance (c : Option Constant) : IsMade ((c.map Term.constant).getD .absent) := by
  cases c <;> exact ⟨.leaf rfl⟩

instance : IsMade ([] : List Term) := ⟨List.forall_mem_nil _⟩

instance (t : Term) (ts : List Term) [first : IsMade t] [rest : IsMade ts] : IsMade (t :: ts) :=
  ⟨List.forall_mem_cons.mpr ⟨first.made, rest.made⟩⟩

theorem IsMade.mem (all : IsMade ts) (inside : t ∈ ts) : IsMade t :=
  ⟨all.made t inside⟩

theorem IsMade.subset {us : List Term} (all : IsMade us) (subset : ts ⊆ us) : IsMade ts :=
  ⟨fun _ inside => all.made _ (subset inside)⟩

instance (ts us : List Term) [first : IsMade ts] [second : IsMade us] : IsMade (ts ++ us) :=
  ⟨List.forall_mem_append.mpr ⟨first.made, second.made⟩⟩

instance (trees : List ParseTree) : IsMade (trees.map Term.ofTree) :=
  ⟨List.forall_mem_map.mpr fun tree _ => ofTree_made tree⟩

instance (p : Term → Bool) (ts : List Term) [all : IsMade ts] : IsMade (ts.partition p) := by
  have filtered : ∀ p : Term → Bool, IsMade (ts.filter p) := fun _ => all.subset ts.filter_subset_self
  rw [List.partition_eq_filter_filter]
  infer_instance

/-! The parts of arrows and headings -/

namespace Convert

instance : Carrier ArrowParts := ⟨fun p => Term.AllMade [p.arrow, p.isIf, p.priority]⟩

instance (arrow isIf priority : Term) [all : IsMade [arrow, isIf, priority]] :
    IsMade (ArrowParts.mk arrow isIf priority) :=
  ⟨all.made⟩

theorem ArrowParts.made (p : ArrowParts) [all : IsMade p] : IsMade [p.arrow, p.isIf, p.priority] :=
  ⟨all.made⟩

instance (p : ArrowParts) [IsMade p] : IsMade p.arrow := p.made.mem (by simp)

instance (p : ArrowParts) [IsMade p] : IsMade p.isIf := p.made.mem (by simp)

instance (p : ArrowParts) [IsMade p] : IsMade p.priority := p.made.mem (by simp)

instance : Carrier SignatureParts where
  Made p := Term.AllMade
    [p.isNode, p.id, p.inputs, p.outputs, p.sizes, p.constraints, p.specialization, p.pragmas]

instance (isNode id inputs outputs sizes constraints specialization pragmas : Term)
    [all : IsMade [isNode, id, inputs, outputs, sizes, constraints, specialization, pragmas]] :
    IsMade (SignatureParts.mk isNode id inputs outputs sizes constraints specialization pragmas) :=
  ⟨all.made⟩

section
variable (p : SignatureParts) [all : IsMade p]

theorem SignatureParts.made :
    IsMade [p.isNode, p.id, p.inputs, p.outputs, p.sizes, p.constraints, p.specialization, p.pragmas] :=
  ⟨all.made⟩

instance : IsMade p.isNode := p.made.mem (by simp)

instance : IsMade p.id := p.made.mem (by simp)

instance : IsMade p.inputs := p.made.mem (by simp)

instance : IsMade p.outputs := p.made.mem (by simp)

instance : IsMade p.sizes := p.made.mem (by simp)

instance : IsMade p.constraints := p.made.mem (by simp)

instance : IsMade p.specialization := p.made.mem (by simp)

instance : IsMade p.pragmas := p.made.mem (by simp)

end

end Convert

end

end SwanModel
