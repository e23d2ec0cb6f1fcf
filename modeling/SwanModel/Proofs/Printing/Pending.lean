import SwanModel.Proofs.Language.Texts
import SwanModel.Proofs.Printing.Bracketed

/-!
# What a text waits for

A text that depends on a body that is not computed yet fails and names the operator, whose body is
pending in the term.
-/

namespace SwanModel

variable {α β : Type} {P : Nat → Prop} {p : Printed} {parts : List Printed}

/-- If a computation waits for the body of an operator, it is one of some operators. -/
def Awaits (P : Nat → Prop) (x : Except Error α) : Prop := ∀ k, x = .error (.pending k) → P k

@[simp ↓] theorem awaits_ok (a : α) : Awaits P (.ok a) := by
  intro k same
  cases same

@[simp ↓] theorem awaits_pure (a : α) : Awaits P (pure a : Except Error α) := awaits_ok a

@[simp ↓] theorem awaits_error (e : Error) : Awaits P (.error e : Except Error α) ↔
    ∀ k, e = .pending k → P k := by
  simp [Awaits]

@[simp ↓] theorem awaits_throw (e : Error) : Awaits P (throw e : Except Error α) ↔
    ∀ k, e = .pending k → P k :=
  awaits_error e

@[simp ↓] theorem awaits_bind (x : Except Error α) (f : α → Except Error β) :
    Awaits P (x >>= f) ↔ Awaits P x ∧ ∀ a, x = .ok a → Awaits P (f a) := by
  cases x <;> simp [Awaits, bind, Except.bind]

@[simp ↓] theorem awaits_map (x : Except Error α) (f : α → β) : Awaits P (f <$> x) ↔ Awaits P x := by
  cases x <;> simp [Awaits, Functor.map, Except.map]

@[simp ↓] theorem awaits_exceptMap (x : Except Error α) (f : α → β) : Awaits P (x.map f) ↔
    Awaits P x := awaits_map x f

@[simp ↓] theorem awaits_ite (c : Prop) [Decidable c] (x y : Except Error α) :
    Awaits P (if c then x else y) ↔ (c → Awaits P x) ∧ (¬ c → Awaits P y) := by
  split <;> simp [*]

theorem Awaits.mapM {f : α → Except Error β} {xs : List α} (each : ∀ x ∈ xs, Awaits P (f x)) :
    Awaits P (xs.mapM f) := by
  induction xs with
  | nil => simp
  | cons x xs ih =>
    rw [List.forall_mem_cons] at each
    have rest := ih each.2
    simp [List.mapM_cons, each.1, rest]

/-! ### Questions about terms -/

section Terms

variable {t : Term}

theorem awaits_valueMember : Awaits P t.valueMember := by
  unfold Term.valueMember
  split <;> simp

theorem awaits_members : Awaits P t.members := by
  unfold Term.members
  split <;> simp

theorem awaits_fullName : Awaits P (Path.fullName t) := by
  have values : Awaits P (Path.values t) := by
    simp [Path.values, awaits_members, Awaits.mapM fun u _ => awaits_valueMember]
  have texts (terms : List Term) : Awaits P (textsOf terms) := by
    refine .mapM fun u _ => ?_
    split <;> simp
  simp [Path.fullName, values, texts]

theorem awaits_pathPragmas : Awaits P (Path.pragmas t) := by
  fun_induction Path.pragmas t <;> simp [*]

theorem awaits_pathName : Awaits P (Path.name t) := by
  unfold Path.name
  split
  · cases List.getLast? _ <;> simp [awaits_valueMember]
  · simp

theorem awaits_found {parts : List Term} {found : Found} : Awaits P (found.term parts) := by
  cases found <;> simp [Found.term, awaits_members]

theorem awaits_loweredName : Awaits P (loweredName t) := by
  cases t with
  | node form parts =>
    simp only [loweredName]
    split
    · rename_i property found
      have name : Awaits P (property parts) := by
        rcases name_property found with ⟨i, rfl⟩ | rfl
        · simp [Property.part]
        · exact (awaits_exceptMap _ _).mpr awaits_pathName
      simp only [awaits_bind, name, awaits_found, true_and]
      intro place _ value _
      split <;> simp
    · simp
  | _ => simp [loweredName]

theorem awaits_isUndefined : Awaits P (isUndefined t) := by
  unfold isUndefined
  split <;> simp

theorem awaits_length : Awaits P t.length := by
  unfold Term.length
  split <;> simp

theorem awaits_guard : Awaits P (Arrow.guard t) := by
  unfold Arrow.guard
  split <;> simp

theorem awaits_isProtected : Awaits P t.isProtected := by
  unfold Term.isProtected
  split <;> simp

end Terms

/-! ### Printed parts -/

/-- Whatever is pending in a printed term, and whatever its texts wait for, is one of some
operators. -/
inductive Printed.Waits (P : Nat → Prop) : Printed → Prop
  | mk {t : Term} {text : Except Error String} {children : List Printed}
    (shown : ∀ k, t = .pending k → P k) (texts : Awaits P text)
    (inside : ∀ child ∈ children, Waits P child) : Waits P (.mk t text children)

namespace Printed

theorem Waits.shown {k : Nat} (waits : p.Waits P) (same : p.term = .pending k) : P k := by
  cases waits with
  | mk shown _ _ => exact shown k same

theorem Waits.text (waits : p.Waits P) : Awaits P p.text := by
  cases waits with
  | mk _ texts _ => exact texts

theorem Waits.inside (waits : p.Waits P) : ∀ child ∈ p.children, child.Waits P := by
  cases waits with
  | mk _ _ inside => exact inside

theorem Waits.place {q : Printed} {path : List Nat} (waits : p.Waits P)
    (found : p.place? path = some q) : q.Waits P := by
  induction path generalizing p with
  | nil =>
    cases found
    exact waits
  | cons i rest ih =>
    obtain ⟨child, member, found⟩ := Option.bind_eq_some_iff.mp found
    exact ih (waits.inside child (List.mem_of_getElem? member)) found

theorem awaits_items : Awaits P p.items := by
  unfold Printed.items
  split <;> simp

theorem Waits.items {items : List Printed} (waits : p.Waits P) (found : p.items = .ok items) :
    ∀ item ∈ items, item.Waits P := by
  unfold Printed.items at found
  split at found
  · cases found
    exact waits.inside
  · cases found
    intro item member
    obtain ⟨c, -, rfl⟩ := List.mem_map.mp member
    exact .mk (by simp) (by simp) (by simp)
  · cases found

theorem Waits.texts (waits : p.Waits P) : Awaits P p.texts := by
  simp only [Printed.texts, awaits_bind, awaits_items, true_and]
  intro items found
  exact .mapM fun item member => (waits.items found item member).text

theorem Waits.join (separator : String) (waits : p.Waits P) : Awaits P (p.join separator) := by
  simp [Printed.join, waits.texts]

theorem Waits.whenTrue (before after : String) (waits : p.Waits P) :
    Awaits P (p.whenTrue before after) := by
  simp [Printed.whenTrue, waits.text]

theorem awaits_exactText : Awaits P p.exactText := by
  unfold Printed.exactText
  split <;> simp

theorem Waits.verbatim (markup : String) (waits : p.Waits P) : Awaits P (verbatimLayout markup p) := by
  simp [verbatimLayout, waits.text]

end Printed

/-! ### Layouts -/

section Layouts

attribute [local simp] Printed.Waits.text Printed.Waits.texts Printed.Waits.join Printed.Waits.whenTrue
  Printed.Waits.verbatim Printed.awaits_exactText Printed.awaits_items awaits_loweredName
    awaits_isUndefined awaits_length
  awaits_guard awaits_isProtected markedLayout

theorem TypeForm.layout_awaits (form : TypeForm) (waits : ∀ p ∈ parts, p.Waits P) :
    Awaits P (form.layout parts) := by
  unfold TypeForm.layout
  split <;> simp [waits, bracesLayout, variantTypeLayout]

theorem PatternForm.layout_awaits (form : PatternForm) (waits : ∀ p ∈ parts, p.Waits P) :
    Awaits P (form.layout parts) := by
  unfold PatternForm.layout
  split <;> simp [waits]

theorem ExprForm.layout_awaits (form : ExprForm) (waits : ∀ p ∈ parts, p.Waits P) :
    Awaits P (form.layout parts) := by
  have loop {state dimensions body returns luid : Printed} (dims : dimensions.Waits P)
      (inner : body.Waits P) (group : returns.Waits P) (name : luid.Waits P) :
        Awaits P (forwardLayout state dimensions body returns luid) := by
    unfold forwardLayout
    split <;> simp [dims, inner, group, name]
  unfold ExprForm.layout
  split <;> simp [waits, mergeLayout, operationLayout, loop]

theorem PartForm.layout_awaits (form : PartForm) (waits : ∀ p ∈ parts, p.Waits P) :
    Awaits P (form.layout parts) := by
  unfold PartForm.layout
  split <;> simp [waits]

theorem OperatorForm.layout_awaits (form : OperatorForm) (waits : ∀ p ∈ parts, p.Waits P) :
    Awaits P (form.layout parts) := by
  unfold OperatorForm.layout
  split
  case h_11 => split <;> simp
  all_goals simp [waits, sizesLayout, transposeLayout]

theorem ForwardForm.layout_awaits (form : ForwardForm) (waits : ∀ p ∈ parts, p.Waits P) :
    Awaits P (form.layout parts) := by
  unfold ForwardForm.layout
  split <;> simp [waits, dimensionLayout, lastDefaultLayout]

theorem branchesLayout_awaits (waits : p.Waits P) : Awaits P (branchesLayout p) := by
  have branch (first : Bool) {q : Printed} (waits : q.Waits P) : Awaits P (branchLayout first q) := by
    have inside := waits.inside
    unfold branchLayout
    split
    · rename_i same
      rw [same] at inside
      simp only [List.forall_mem_cons] at inside
      simp [inside]
    · rw [awaits_error]
      intro k same
      split at same <;> cases same
    · simp
  simp only [branchesLayout, awaits_bind, Printed.awaits_items, true_and]
  intro items found
  have each := waits.items found
  cases items with
  | nil => simp
  | cons first rest =>
    rw [List.forall_mem_cons] at each
    have tail : Awaits P (rest.mapM (branchLayout false)) :=
      .mapM fun item member => branch false (each.2 item member)
    simp [branch true each.1, tail]

theorem EquationForm.layout_awaits (form : EquationForm) (waits : ∀ p ∈ parts, p.Waits P) :
    Awaits P (form.layout parts) := by
  unfold EquationForm.layout
  split <;> simp [waits, luidLayout, branchesLayout_awaits, leftLayout, stateLayout,
    transitionsLayout, forkTreeLayout, arrowLayout]

theorem DiagramForm.layout_awaits (form : DiagramForm) (waits : ∀ p ∈ parts, p.Waits P) :
    Awaits P (form.layout parts) := by
  have told : Awaits P (form.description parts) := by
    unfold DiagramForm.description
    split
    case h_6 =>
      simp only [awaits_bind, awaits_pure, implies_true, and_true]
      unfold groupOperationWord
      split <;> simp
    all_goals simp [waits, blockLayout, wireLayout]
  unfold DiagramForm.layout
  split <;> simp [waits, connectionLayout, objectLayout, told]

theorem SectionForm.layout_awaits (form : SectionForm) (waits : ∀ p ∈ parts, p.Waits P) :
    Awaits P (form.layout parts) := by
  unfold SectionForm.layout
  split <;> simp [waits, sectionLayout]

theorem signatureLayout_awaits
    {id isNode inputs outputs sizes constraints specialization pragmas : Printed}
    (name : id.Waits P) (ins : inputs.Waits P) (outs : outputs.Waits P) (params : sizes.Waits P)
    (kinds : constraints.Waits P) (special : specialization.Waits P) (marks : pragmas.Waits P) :
    Awaits P (signatureLayout id isNode inputs outputs sizes constraints specialization pragmas) := by
  have flows {row : List Printed} (each : ∀ q ∈ row, q.Waits P) : Awaits P (flowsLayout row) := by
    have texts : Awaits P (row.mapM Printed.text) := .mapM fun flow member => (each flow member).text
    simp [flowsLayout, texts]
  have parameters : Awaits P (sizeParametersLayout sizes) := by
    simp only [sizeParametersLayout, awaits_bind, Printed.awaits_items, true_and]
    intro items found
    have texts : Awaits P (items.mapM sizeLayout) :=
      .mapM fun item member => by simp [sizeLayout, params.items found item member]
    simp [texts]
  simp +contextual [signatureLayout, name, flows (ins.items _), flows (outs.items _), parameters,
    spacedLayout, kinds, special, marks]

theorem DeclForm.layout_awaits (form : DeclForm) (waits : ∀ p ∈ parts, p.Waits P) :
    Awaits P (form.layout parts) := by
  have body {q : Printed} (waits : q.Waits P) : Awaits P (bodyLayout q) := by
    unfold bodyLayout
    split
    · rename_i k same
      simpa using waits.shown same
    · simp [waits]
  unfold DeclForm.layout
  split <;> simp [waits, flowLayout, signatureLayout_awaits, body]

theorem ModuleForm.layout_awaits (form : ModuleForm) (waits : ∀ p ∈ parts, p.Waits P) :
    Awaits P (form.layout parts) := by
  unfold ModuleForm.layout
  split <;> simp [waits, declarationsLayout, moduleLayout]

theorem printedPragmas_waits {marks : Printed} (waits : p.Waits P)
    (found : Path.printedPragmas p = .ok marks) : marks.Waits P := by
  have placed (place : List Nat) : ((p.place? place).getD (.mk .absent (.ok noneText) [])).Waits P := by
    cases found : p.place? place with
    | none => exact .mk (by simp) (by simp) (by simp)
    | some q => exact waits.place found
  obtain ⟨place, -, found⟩ := ok_of_bind found
  split at found
  · cases found
    exact placed _
  · cases found
    exact placed _
  · cases found
    exact .mk (by simp) (by simp) (by simp)

theorem pathLayout_awaits (waits : p.Waits P) : Awaits P (pathLayout p) := by
  have pragmas : Awaits P (Path.printedPragmas p) := by
    simp only [Path.printedPragmas, awaits_bind, awaits_pathPragmas, true_and]
    intro place _
    split <;> simp
  unfold pathLayout
  split
  · simp only [awaits_bind, pragmas, awaits_fullName, true_and]
    intro marks found
    have marked := printedPragmas_waits waits found
    refine ⟨by simp [pragmasLayout, marked], fun front _ name _ => ?_⟩
    split <;> simp
  · simp [waits]

theorem NameForm.layout_awaits (form : NameForm) (waits : ∀ p ∈ parts, p.Waits P) :
    Awaits P (form.layout parts) := by
  unfold NameForm.layout
  split <;> simp [waits, pragmasLayout, pathLayout_awaits]

theorem Form.text_awaits (form : Form) (waits : ∀ p ∈ parts, p.Waits P) :
    Awaits P (form.text parts) := by
  unfold Form.text
  split
  · simp
  · cases form with
    | _ f => exact f.layout_awaits waits

theorem listText_awaits (waits : ∀ p ∈ parts, p.Waits P) : Awaits P (listText parts) := by
  have texts : Awaits P (parts.mapM Printed.inList) := by
    refine .mapM fun item member => ?_
    unfold Printed.inList
    split <;> simp [waits item member]
  simp [listText, texts]

end Layouts

/-! ### Terms -/

mutual

def Term.pendings : Term → List Nat
  | .pending k => [k]
  | .list items => pendingsAll items
  | .node _ parts => pendingsAll parts
  | _ => []

def Term.pendingsAll : List Term → List Nat
  | [] => []
  | t :: rest => t.pendings ++ pendingsAll rest

end

mutual

theorem Term.printed_waits {t : Term} (pending : ∀ k ∈ t.pendings, P k) : t.printed.Waits P := by
  cases t with
  | list items =>
    rw [Term.printed]
    have inside := Term.printedAll_waits pending
    exact .mk (by simp) (listText_awaits inside) inside
  | node form parts =>
    rw [Term.printed]
    have inside := Term.printedAll_waits pending
    exact .mk (by simp) (form.text_awaits inside) inside
  | pending k =>
    have here := pending k (by simp [Term.pendings])
    exact .mk (by simp [here]) (by simp [Term.atomText, here]) (by simp)
  | pragma content => exact .mk (by simp) (by cases content <;> simp [Term.atomText]) (by simp)
  | _ => exact .mk (by simp) (by simp [Term.atomText]) (by simp)

theorem Term.printedAll_waits {ts : List Term} (pending : ∀ k ∈ Term.pendingsAll ts, P k) :
    ∀ p ∈ Term.printedAll ts, p.Waits P := by
  cases ts with
  | nil => simp [Term.printedAll]
  | cons t rest =>
    simp only [Term.pendingsAll, List.forall_mem_append] at pending
    rw [Term.printedAll, List.forall_mem_cons]
    exact ⟨Term.printed_waits pending.1, Term.printedAll_waits pending.2⟩

end

/-- The text of a term waits for operators only whose bodies are pending in it. -/
theorem Term.print_pending {t : Term} {k : Nat} (failed : t.print = .error (.pending k)) :
    k ∈ t.pendings :=
  (Term.printed_waits fun _ member => member).text k failed

end SwanModel
