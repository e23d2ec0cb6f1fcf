import SwanModel.Proofs.Language.Terms

/-!
# Printing always succeeds

`Part` says that a printed term has a shape and that everything in it has a text; from parts like
these every layout makes a text.
-/

namespace SwanModel

/-- A computation that does not fail. -/
class Succeeds {α : Type} (x : Except Error α) : Prop where
  ok : ∃ a, x = .ok a

namespace Succeeds

variable {α β : Type}

instance (a : α) : Succeeds (pure a) := ⟨⟨a, rfl⟩⟩

instance (a : α) : Succeeds (Except.ok a) := ⟨⟨a, rfl⟩⟩

instance (x : Except Error α) (f : α → Except Error β) [first : Succeeds x]
    [rest : ∀ a, Succeeds (f a)] : Succeeds (x >>= f) where
  ok := by
    obtain ⟨a, rfl⟩ := first.ok
    exact (rest a).ok

instance (x : Except Error α) (f : α → β) [first : Succeeds x] : Succeeds (f <$> x) where
  ok := by
    obtain ⟨a, rfl⟩ := first.ok
    exact ⟨f a, rfl⟩

instance (c : Prop) [Decidable c] (x y : Except Error α) [yes : Succeeds x] [no : Succeeds y] :
    Succeeds (if c then x else y) := by
  split
  · exact yes
  · exact no

theorem mapM {f : α → Except Error β} {xs : List α} (each : ∀ x ∈ xs, Succeeds (f x)) :
    Succeeds (xs.mapM f) := by
  induction xs with
  | nil => exact ⟨⟨[], rfl⟩⟩
  | cons x xs ih =>
    have first := each x (by simp)
    have rest := ih fun other inside => each other (by simp [inside])
    rw [List.mapM_cons]
    infer_instance

end Succeeds

/-- Everything in a printed term has a text. -/
inductive Printed.Legible : Printed → Prop
  | mk {t : Term} {text : Except Error String} {children : List Printed} (ok : ∃ s, text = .ok s)
      (inside : ∀ child ∈ children, Legible child) : Legible (.mk t text children)

theorem Printed.Legible.text {p : Printed} (legible : p.Legible) : ∃ s, p.text = .ok s := by
  cases legible with
  | mk ok _ => exact ok

theorem Printed.Legible.inside {p : Printed} (legible : p.Legible) :
    ∀ child ∈ p.children, child.Legible := by
  cases legible with
  | mk _ inside => exact inside

@[simp] theorem Term.term_printed (t : Term) : t.printed.term = t := by cases t <;> rfl

/-- A term has a shape, and everything in it has a text. -/
class Part (shape : outParam TermShape) (t : Term) : Prop where
  fits : Fits shape t
  legible : t.printed.Legible

inductive Parts : List TermShape → List Term → Prop
  | cons {shape : TermShape} {t : Term} {shapes : List TermShape} {ts : List Term} (head : Part shape t)
      (tail : Parts shapes ts) : Parts (shape :: shapes) (t :: ts)
  | nil : Parts [] []

variable {shape : TermShape} {t : Term}

theorem FitsAll.parts {shapes : List TermShape} {ts : List Term} (fits : FitsAll shapes ts)
    (legible : ∀ t ∈ ts, t.printed.Legible) : Parts shapes ts := by
  induction shapes generalizing ts with
  | nil => cases fits; exact .nil
  | cons shape shapes ih =>
    cases fits with
    | cons head tail =>
      exact .cons ⟨head, legible _ (by simp)⟩ (ih tail fun t inside => legible t (by simp [inside]))

instance [part : Part shape t] : Succeeds t.printed.text := ⟨part.legible.text⟩

theorem Succeeds.mapM_printed {β : Type} {f : Printed → Except Error β} {items : List Term}
    (each : ∀ item ∈ items, Succeeds (f item.printed)) : Succeeds ((items.map Term.printed).mapM f) := by
  refine .mapM fun p inside => ?_
  obtain ⟨item, member, rfl⟩ := List.mem_map.mp inside
  exact each item member

theorem items_printed (items : List Term) :
    (Term.list items).printed.items = .ok (items.map Term.printed) := by
  rw [← Term.printedAll_eq_map]
  rfl

theorem Part.items [part : Part (.list shape) t] :
    ∃ items, t = .list items ∧ t.printed.items = .ok (items.map Term.printed) ∧
      ∀ item ∈ items, Part shape item := by
  obtain ⟨items, rfl, fits⟩ := part.fits.eq_list
  have children : (Term.list items).printed.children = items.map Term.printed := by
    rw [Term.printed, Printed.children, Term.printedAll_eq_map]
  refine ⟨items, rfl, items_printed items, fun item member => ⟨fits.mem member, ?_⟩⟩
  exact part.legible.inside _ (by rw [children]; exact List.mem_map_of_mem member)

instance [part : Part (.list shape) t] : Succeeds t.printed.texts where
  ok := by
    obtain ⟨items, _, listed, each⟩ := part.items
    have all : Succeeds ((items.map Term.printed).mapM Printed.text) :=
      .mapM_printed fun item member => ⟨(each item member).legible.text⟩
    simp only [Printed.texts, listed]
    exact all.ok

theorem Part.parts {form : Form} {shapes : List TermShape} [part : Part (.construct [form]) t]
    (known : form.parts = some shapes) :
    ∃ ts, t = .node form ts ∧ t.printed.children = ts.map Term.printed ∧ Parts shapes ts := by
  obtain ⟨ts, rfl, fits⟩ := part.fits.eq_node known
  have children : (Term.node form ts).printed.children = ts.map Term.printed := by
    rw [Term.printed, Printed.children, Term.printedAll_eq_map]
  have legible := part.legible.inside
  rw [children] at legible
  exact ⟨ts, rfl, children, fits.parts fun t inside => legible _ (List.mem_map_of_mem inside)⟩

instance (separator : String) [Part (.list shape) t] : Succeeds (t.printed.join separator) := by
  unfold Printed.join
  infer_instance

instance (before after : String) [Part shape t] : Succeeds (t.printed.whenTrue before after) := by
  unfold Printed.whenTrue
  infer_instance

instance (markup : String) [Part shape t] : Succeeds (verbatimLayout markup t.printed) := by
  unfold verbatimLayout
  infer_instance

instance {other : TermShape} {u : Term} [Part shape t] [Part other u] :
    Succeeds (markedLayout t.printed u.printed) := by
  unfold markedLayout
  infer_instance

instance [part : Part .text t] : Succeeds t.printed.exactText where
  ok := by
    obtain ⟨s, rfl⟩ := part.fits.eq_text
    exact ⟨s, rfl⟩

/-- A text kept as it is, or a list, and what follows. -/
instance (markup separator : String) (f : String → Except Error String)
    [part : Part (.either .text (.list shape)) t] [rest : ∀ s, Succeeds (f s)] :
    Succeeds (if t.printed.term.isText then verbatimLayout markup t.printed >>= f
      else t.printed.join separator >>= f) := by
  rcases part.fits.or with isText | isList
  · have : Part .text t := ⟨isText, part.legible⟩
    obtain ⟨s, rfl⟩ := isText.eq_text
    exact inferInstanceAs (Succeeds (verbatimLayout markup (Term.text s).printed >>= f))
  · have : Part (.list shape) t := ⟨isList, part.legible⟩
    obtain ⟨items, rfl, _⟩ := isList.eq_list
    exact inferInstanceAs (Succeeds ((Term.list items).printed.join separator >>= f))

instance {family : String} [part : Part (.constant family) t] :
    Succeeds (loweredName t.printed.term) where
  ok := by
    cases part.fits
    exact ⟨_, rfl⟩

/-! ### Layouts

Every layout is a chain of texts of parts and of texts of their members, so that the instances above
put its text together. The layouts that look deeper into a part have instances of their own. -/

section Layouts

variable {shapes : List TermShape} {ts : List Term}

theorem TypeForm.layout_succeeds {form : TypeForm} (known : form.parts = some shapes)
    (parts : Parts shapes ts) : Succeeds (form.layout (ts.map Term.printed)) := by
  cases form <;> cases known <;> (repeat rcases parts with ⟨_, parts⟩ | ⟨⟩) <;>
    simp only [List.map_cons, List.map_nil, TypeForm.layout, bracesLayout, variantTypeLayout] <;>
      infer_instance

theorem PatternForm.layout_succeeds {form : PatternForm} (known : form.parts = some shapes)
    (parts : Parts shapes ts) : Succeeds (form.layout (ts.map Term.printed)) := by
  cases form <;> cases known <;> (repeat rcases parts with ⟨_, parts⟩ | ⟨⟩) <;>
    simp only [List.map_cons, List.map_nil, PatternForm.layout] <;> infer_instance

theorem ExprForm.layout_succeeds {form : ExprForm} (known : form.parts = some shapes)
    (parts : Parts shapes ts) : Succeeds (form.layout (ts.map Term.printed)) := by
  cases form <;> cases known <;> (repeat rcases parts with ⟨_, parts⟩ | ⟨⟩) <;>
    simp only [List.map_cons, List.map_nil, ExprForm.layout, mergeLayout, operationLayout] <;>
      infer_instance

theorem PartForm.layout_succeeds {form : PartForm} (known : form.parts = some shapes)
    (parts : Parts shapes ts) : Succeeds (form.layout (ts.map Term.printed)) := by
  cases form <;> cases known <;> (repeat rcases parts with ⟨_, parts⟩ | ⟨⟩) <;>
    simp only [List.map_cons, List.map_nil, PartForm.layout] <;> infer_instance

instance (front : String) [Part (.list shape) t] : Succeeds (sizesLayout front t.printed) := by
  unfold sizesLayout
  infer_instance

instance [Part (.either .text (.list shape)) t] : Succeeds (transposeLayout t.printed) := by
  simp only [transposeLayout]
  infer_instance

theorem OperatorForm.layout_succeeds {form : OperatorForm} (known : form.parts = some shapes)
    (parts : Parts shapes ts) : Succeeds (form.layout (ts.map Term.printed)) := by
  cases form
  -- This layout looks at the constant itself and takes only those of its family.
  case nary =>
    cases known
    rcases parts with ⟨op, ⟨⟩⟩
    obtain ⟨c, same, rfl⟩ := op.fits.eq_constant
    cases c with
    | naryOp op => exact ⟨⟨_, rfl⟩⟩
    | _ => simp [Constant.family] at same
  all_goals
    cases known <;> (repeat rcases parts with ⟨_, parts⟩ | ⟨⟩) <;>
      simp only [List.map_cons, List.map_nil, OperatorForm.layout] <;> infer_instance

/-! Equations: activations look at their branches, state machines at their names. -/

instance [part : Part (.equationPart .identification) t] : Succeeds (isUndefined t.printed.term) where
  ok := by
    obtain ⟨_, rfl, _⟩ := part.fits.eq_node rfl
    exact ⟨_, rfl⟩

instance [part : Part (.equationPart .arrow) t] : Succeeds (Arrow.guard t.printed.term) where
  ok := by
    obtain ⟨_, rfl, _⟩ := part.fits.eq_node rfl
    exact ⟨_, rfl⟩

instance [part : Part (.list shape) t] : Succeeds t.printed.term.length where
  ok := by
    obtain ⟨items, rfl, _⟩ := part.fits.eq_list
    exact ⟨_, rfl⟩

instance [part : Part (.maybe .text) t] : Succeeds (luidLayout t.printed) := by
  unfold luidLayout
  rcases part.fits.or with isAbsent | isText
  · rw [isAbsent.eq_absent]
    exact ⟨⟨"", rfl⟩⟩
  · have : Part .text t := ⟨isText, part.legible⟩
    infer_instance

instance (first : Bool) [part : Part (.equationPart .ifBranch) t] :
    Succeeds (branchLayout first t.printed) := by
  obtain ⟨_, rfl, children, parts⟩ := part.parts rfl
  rcases parts with ⟨condition, body, ⟨⟩⟩
  simp only [branchLayout, Term.term_printed, children, List.map_cons, List.map_nil]
  infer_instance

instance [part : Part (.list (.equationPart .ifBranch)) t] : Succeeds (branchesLayout t.printed) := by
  obtain ⟨items, _, listed, each⟩ := part.items
  simp only [branchesLayout, listed, ok_bind]
  cases items with
  | nil => exact ⟨⟨_, rfl⟩⟩
  | cons first rest =>
    have head := each first (by simp)
    have tail : Succeeds ((rest.map Term.printed).mapM (branchLayout false)) := by
      refine .mapM_printed fun item member => ?_
      have := each item (by simp [member])
      infer_instance
    simp only [List.map_cons]
    infer_instance

theorem EquationForm.layout_succeeds {form : EquationForm} (known : form.parts = some shapes)
    (parts : Parts shapes ts) (spoken : form ≠ .ifBranch) :
    Succeeds (form.layout (ts.map Term.printed)) := by
  cases form <;> cases known <;> (try contradiction) <;> (repeat rcases parts with ⟨_, parts⟩ | ⟨⟩) <;>
    simp only [List.map_cons, List.map_nil, EquationForm.layout, leftLayout, arrowLayout,
      forkTreeLayout, stateLayout, transitionsLayout] <;> infer_instance

instance {family : String} [part : Part (.constant family) t] :
    Succeeds (groupOperationWord t.printed.term) where
  ok := by
    obtain ⟨c, _, rfl⟩ := part.fits.eq_constant
    cases c <;> exact ⟨_, rfl⟩

theorem DiagramForm.layout_succeeds {form : DiagramForm} (known : form.parts = some shapes)
    (parts : Parts shapes ts) : Succeeds (form.layout (ts.map Term.printed)) := by
  cases form <;> cases known <;> (repeat rcases parts with ⟨_, parts⟩ | ⟨⟩) <;>
    simp only [List.map_cons, List.map_nil, DiagramForm.layout, DiagramForm.description,
      objectLayout, blockLayout, connectionLayout, wireLayout] <;> infer_instance

theorem SectionForm.layout_succeeds {form : SectionForm} (known : form.parts = some shapes)
    (parts : Parts shapes ts) : Succeeds (form.layout (ts.map Term.printed)) := by
  cases form <;> cases known <;> (repeat rcases parts with ⟨_, parts⟩ | ⟨⟩) <;>
    simp only [List.map_cons, List.map_nil, SectionForm.layout, sectionLayout] <;> infer_instance

theorem flowsLayout_succeeds {items : List Term} (each : ∀ item ∈ items, Part shape item) :
    Succeeds (flowsLayout (items.map Term.printed)) := by
  have texts : Succeeds ((items.map Term.printed).mapM Printed.text) :=
    .mapM_printed fun item member => ⟨(each item member).legible.text⟩
  unfold flowsLayout
  infer_instance

instance [part : Part .identifier t] : Succeeds (sizeLayout t.printed) := by
  have asked : Succeeds t.printed.term.isProtected := by
    obtain ⟨_, rfl, _⟩ := part.fits.eq_node rfl
    exact ⟨⟨_, rfl⟩⟩
  unfold sizeLayout
  infer_instance

instance [part : Part (.list .identifier) t] : Succeeds (sizeParametersLayout t.printed) := by
  obtain ⟨items, _, listed, each⟩ := part.items
  have all : Succeeds ((items.map Term.printed).mapM sizeLayout) := by
    refine .mapM_printed fun item member => ?_
    have := each item member
    infer_instance
  simp only [sizeParametersLayout, listed, ok_bind]
  infer_instance

instance [Part (.list shape) t] : Succeeds (spacedLayout t.printed) := by
  unfold spacedLayout
  infer_instance

/-- The heading of an operator has a text. -/
instance {id isNode inputs outputs sizes constraints general marks : Term} [Part .identifier id]
    [Part .flag isNode] [areInputs : Part (.list .flow) inputs]
    [areOutputs : Part (.list .flow) outputs] [Part (.list .identifier) sizes]
    [Part (.list (.decl .typeConstraint)) constraints] [Part (.maybe .path) general]
    [Part (.list .pragma) marks] :
    Succeeds (signatureLayout id.printed isNode.printed inputs.printed outputs.printed sizes.printed
      constraints.printed general.printed marks.printed) := by
  obtain ⟨ins, _, listedIn, eachIn⟩ := areInputs.items
  obtain ⟨outs, _, listedOut, eachOut⟩ := areOutputs.items
  have insText := flowsLayout_succeeds eachIn
  have outsText := flowsLayout_succeeds eachOut
  simp only [signatureLayout, listedIn, listedOut, ok_bind]
  infer_instance

instance [part : Part (.maybe .scope) t] : Succeeds (bodyLayout t.printed) := by
  obtain rfl | ⟨form, ts, rfl⟩ : t = .absent ∨ ∃ form ts, t = .node form ts := by
    rcases part.fits.or with isAbsent | isScope
    · exact .inl isAbsent.eq_absent
    · rcases isScope.or with fits | fits <;> cases fits <;> exact .inr ⟨_, _, rfl⟩
  · exact ⟨⟨";", rfl⟩⟩
  · simp only [bodyLayout, Term.term_printed]
    infer_instance

theorem DeclForm.layout_succeeds {form : DeclForm} (known : form.parts = some shapes)
    (parts : Parts shapes ts) : Succeeds (form.layout (ts.map Term.printed)) := by
  cases form <;> cases known <;> (repeat rcases parts with ⟨_, parts⟩ | ⟨⟩) <;>
    simp only [List.map_cons, List.map_nil, DeclForm.layout, flowLayout] <;> infer_instance

theorem ModuleForm.layout_succeeds {form : ModuleForm} (known : form.parts = some shapes)
    (parts : Parts shapes ts) : Succeeds (form.layout (ts.map Term.printed)) := by
  cases form <;> cases known <;> (repeat rcases parts with ⟨_, parts⟩ | ⟨⟩) <;>
    simp only [List.map_cons, List.map_nil, ModuleForm.layout, declarationsLayout] <;> infer_instance

/-! A path is printed from the values of its identifiers and the pragmas of the first one. -/

theorem textsOf_map_text (names : List String) : textsOf (names.map Term.text) = .ok names := by
  induction names with
  | nil => rfl
  | cons name names ih =>
    rw [textsOf] at ih ⊢
    rw [List.map_cons, List.mapM_cons, ok_bind, ih]
    rfl

theorem fullName_of_values {items : List Term} {names : List String}
    (values : items.mapM Term.valueMember = .ok (names.map Term.text)) :
    Path.fullName (.list items) = .ok (.text ("::".intercalate names)) := by
  simp only [Path.fullName, Path.values, Term.isList, Term.members, if_true, ok_bind, values,
    textsOf_map_text]
  rfl

theorem fullName_ids {items : List Term} (ids : FitsEach .identifier items) :
    ∃ s, Path.fullName (.list items) = .ok (.text s) := by
  have named : ∃ names : List String, items.mapM Term.valueMember = .ok (names.map Term.text) := by
    induction items with
    | nil => exact ⟨[], rfl⟩
    | cons item items ih =>
      cases ids with
      | cons head tail =>
        obtain ⟨name, value⟩ := valueMember_identifier head
        obtain ⟨names, values⟩ := ih tail
        refine ⟨name :: names, ?_⟩
        rw [List.mapM_cons, value, ok_bind, values]
        rfl
  obtain ⟨names, values⟩ := named
  exact ⟨_, fullName_of_values values⟩

instance [Part (.list .text) t] : Succeeds (pragmasLayout t.printed) := by
  unfold pragmasLayout
  infer_instance

theorem printedPragmas_ids (first : Term) (items : List Term) [part : Part .identifier first] :
    ∃ marks, Path.printedPragmas (Term.list (first :: items)).printed = .ok marks.printed ∧
      Part (.list .text) marks := by
  obtain ⟨_, rfl, children, parts⟩ := part.parts rfl
  rcases parts with ⟨_, marks, _, _, ⟨⟩⟩
  exact ⟨_, rfl, marks⟩

instance [part : Part (.either (.filled .identifier) .text) t] : Succeeds (pathLayout t.printed) := by
  rcases part.fits.or with fits | isText
  · cases fits with
    | filled head tail =>
      rename_i first items
      have legible := part.legible.inside first.printed
        (by simp [Term.printed, Printed.children, Term.printedAll])
      have : Part .identifier first := ⟨head, legible⟩
      obtain ⟨marks, isMarks, _⟩ := printedPragmas_ids first items
      obtain ⟨name, isName⟩ := fullName_ids (.cons head tail)
      simp only [pathLayout, Term.term_printed, Term.isList, if_true, isMarks, isName, ok_bind]
      infer_instance
  · have : Part .text t := ⟨isText, part.legible⟩
    obtain ⟨s, rfl⟩ := isText.eq_text
    exact inferInstanceAs (Succeeds (verbatimLayout Name.defaultMarkup (Term.text s).printed))

theorem NameForm.layout_succeeds {form : NameForm} (known : form.parts = some shapes)
    (parts : Parts shapes ts) : Succeeds (form.layout (ts.map Term.printed)) := by
  cases form <;> cases known <;> (repeat rcases parts with ⟨_, parts⟩ | ⟨⟩) <;>
    simp only [List.map_cons, List.map_nil, NameForm.layout] <;> infer_instance

/-- A construct is printed from parts of its shapes. -/
theorem Form.text_succeeds {form : Form} (known : form.parts = some shapes) (parts : Parts shapes ts) :
    Succeeds (form.text (ts.map Term.printed)) := by
  unfold Form.text
  split
  · infer_instance
  · rename_i spoken
    cases form with
    | name form => exact form.layout_succeeds known parts
    | type form => exact form.layout_succeeds known parts
    | pattern form => exact form.layout_succeeds known parts
    | expr form => exact form.layout_succeeds known parts
    | part form => exact form.layout_succeeds known parts
    | operator form => exact form.layout_succeeds known parts
    | forward form => cases known
    | equation form => exact form.layout_succeeds known parts (by rintro rfl; exact spoken rfl)
    | diagram form => exact form.layout_succeeds known parts
    | scope form => exact form.layout_succeeds known parts
    | decl form => exact form.layout_succeeds known parts
    | module form => exact form.layout_succeeds known parts

end Layouts

/-! ### Terms -/

theorem inList_ok {t : Term} (legible : t.printed.Legible) : Succeeds t.printed.inList := by
  have := legible.text
  unfold Printed.inList
  split
  · infer_instance
  · infer_instance
  · infer_instance
  · exact ⟨legible.text⟩

theorem list_legible {items : List Term} (each : ∀ item ∈ items, item.printed.Legible) :
    (Term.list items).printed.Legible := by
  rw [Term.printed, Term.printedAll_eq_map]
  refine .mk ?_ fun child inside => ?_
  · have all : Succeeds ((items.map Term.printed).mapM Printed.inList) :=
      .mapM_printed fun item member => inList_ok (each item member)
    have : Succeeds (listText (items.map Term.printed)) := by
      unfold listText
      infer_instance
    exact this.ok
  · obtain ⟨item, member, rfl⟩ := List.mem_map.mp inside
    exact each item member

theorem node_legible {form : Form} {shapes : List TermShape} {parts : List Term}
    (known : form.parts = some shapes) (fits : FitsAll shapes parts)
    (legible : ∀ part ∈ parts, part.printed.Legible) :
    (Term.node form parts).printed.Legible := by
  rw [Term.printed, Term.printedAll_eq_map]
  refine .mk (Form.text_succeeds known (fits.parts legible)).ok fun child inside => ?_
  obtain ⟨part, member, rfl⟩ := List.mem_map.mp inside
  exact legible part member

mutual

/-- Everything in a well-formed term has a text. -/
theorem Fits.legible {shape : TermShape} {t : Term} (fits : Fits shape t) : t.printed.Legible :=
  match fits with
  | .absent | .text _ | .flag _ | .number _ | .constant _ | .pragma _ => .mk ⟨_, rfl⟩ (by simp)
  | .construct _ known fits => node_legible known fits fits.legible
  | .list fits => list_legible fits.legible
  | .filled head tail => list_legible (List.forall_mem_cons.mpr ⟨head.legible, tail.legible⟩)
  | .left fits | .right fits => fits.legible

theorem FitsAll.legible {shapes : List TermShape} {ts : List Term} (fits : FitsAll shapes ts) :
    ∀ t ∈ ts, t.printed.Legible :=
  match fits with
  | .cons head tail => List.forall_mem_cons.mpr ⟨head.legible, tail.legible⟩
  | .nil => by simp

theorem FitsEach.legible {shape : TermShape} {ts : List Term} (fits : FitsEach shape ts) :
    ∀ t ∈ ts, t.printed.Legible :=
  match fits with
  | .cons head tail => List.forall_mem_cons.mpr ⟨head.legible, tail.legible⟩
  | .nil => by simp

end

/-- A well-formed term has a text. -/
theorem Fits.print {shape : TermShape} {t : Term} (fits : Fits shape t) : ∃ s, t.print = .ok s :=
  fits.legible.text

end SwanModel
