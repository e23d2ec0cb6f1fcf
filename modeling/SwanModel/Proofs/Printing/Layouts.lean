import SwanModel.Proofs.Printing.Bracketed
import SwanModel.Proofs.Store.Force

/-!
# Printed text is well bracketed

The brackets in the words of a layout match, whichever of its parts are left out; so by induction on
the term the brackets match in its text.
-/

namespace SwanModel

open Brackets

section Layouts

variable {p : Printed} {parts : List Printed}

theorem foldlM_ite {c : Prop} [Decidable c] {s t : String} (yes : Nested s) (no : Nested t)
    (due : List Char) : (if c then s else t).toList.foldlM step due = some due := by
  split
  · exact yes due
  · exact no due

theorem nested_unarySign (t : Term) : Nested (unarySign t) := by
  unfold unarySign
  split
  next op => exact Plain.nested (by cases op <;> decide)
  next => exact Plain.nested (by decide)

theorem nested_binarySign (t : Term) : Nested (binarySign t) := by
  unfold binarySign
  split
  next op => exact Plain.nested (by cases op <;> decide)
  next => exact Plain.nested (by decide)

-- The answers to the questions of a layout are introduced from the outside in, and then its words
-- are read.
attribute [local simp ↓] Printed.Bracketed.ensures_text Printed.Bracketed.ensures_join
    Printed.Bracketed.ensures_texts
  Printed.Bracketed.ensures_items Printed.Bracketed.ensures_exactText
    Printed.Bracketed.ensures_loweredName
  Printed.Bracketed.ensures_whenTrue Printed.Bracketed.ensures_verbatimLayout

attribute [local simp] Nested foldlM_intercalate foldlM_ite step isBracket closing? markedLayout
    Name.enclose
  Name.defaultMarkup Plain.nested

theorem TypeForm.layout_nested (form : TypeForm) (ok : ∀ p ∈ parts, p.Bracketed) :
    Ensures Nested (form.layout parts) := by
  unfold TypeForm.layout
  split <;> simp +contextual [ok, bracesLayout, variantTypeLayout, or_imp, forall_and]

theorem PatternForm.layout_nested (form : PatternForm) (ok : ∀ p ∈ parts, p.Bracketed) :
    Ensures Nested (form.layout parts) := by
  unfold PatternForm.layout
  split <;> simp +contextual [ok]

theorem forwardLayout_nested {state dimensions body returns luid : Printed} (dims : dimensions.Bracketed)
    (inner : body.Bracketed) (group : returns.Bracketed) (name : luid.Bracketed) :
    Ensures Nested (forwardLayout state dimensions body returns luid) := by
  unfold forwardLayout
  split <;> simp +contextual [dims, inner, group, name]

theorem ExprForm.layout_nested (form : ExprForm) (ok : ∀ p ∈ parts, p.Bracketed) :
    Ensures Nested (form.layout parts) := by
  unfold ExprForm.layout
  split <;> simp +contextual [ok, mergeLayout, operationLayout, forwardLayout_nested,
    nested_unarySign, nested_binarySign]

theorem PartForm.layout_nested (form : PartForm) (ok : ∀ p ∈ parts, p.Bracketed) :
    Ensures Nested (form.layout parts) := by
  unfold PartForm.layout
  split <;> simp +contextual [ok]

theorem nested_iteratorWord (t : Term) : Nested (iteratorWord t) := by
  unfold iteratorWord
  split
  next kind => exact Plain.nested (by cases kind <;> decide)
  next => exact Plain.nested (by decide)

theorem transposeLayout_nested (ok : p.Bracketed) : Ensures Nested (transposeLayout p) := by
  simp +contextual [transposeLayout, ok]

theorem OperatorForm.layout_nested (form : OperatorForm) (ok : ∀ p ∈ parts, p.Bracketed) :
    Ensures Nested (form.layout parts) := by
  unfold OperatorForm.layout
  split
  case h_11 =>
    split
    next op _ => exact (ensures_ok _).mpr (Plain.nested (by cases op <;> decide))
    next => simp
  all_goals simp +contextual [ok, sizesLayout, (transposeLayout_nested _).use, nodeWord,
    nested_iteratorWord]

theorem ForwardForm.layout_nested (form : ForwardForm) (ok : ∀ p ∈ parts, p.Bracketed) :
    Ensures Nested (form.layout parts) := by
  unfold ForwardForm.layout
  split <;> simp +contextual [ok, dimensionLayout, lastDefaultLayout, dimensionMarkup]

theorem luidLayout_nested (ok : p.Bracketed) : Ensures Nested (luidLayout p) := by
  have luid {name : String} (plain : Plain name) : Nested (luidText name) := by
    have body : Nested ("#" ++ String.ofList (Name.dropHash name.toList)) := by
      simpa using plain.dropHash.nested
    unfold luidText Name.protect
    dsimp only
    split
    · exact (by decide : Plain "").nested.enclose body
    · exact body
  simp +contextual [luidLayout, ok, luid]

theorem branchLayout_nested (first : Bool) (ok : p.Bracketed) :
    Ensures Nested (branchLayout first p) := by
  have inside := ok.inside
  unfold branchLayout
  split
  next condition body _ same =>
    rw [same] at inside
    simp only [List.forall_mem_cons] at inside
    simp +contextual [inside]
  next => simp
  next => simp

theorem branchesLayout_nested (ok : p.Bracketed) : Ensures Nested (branchesLayout p) := by
  simp only [branchesLayout, ensures_bind, ok.ensures_items]
  intro items each _
  cases items with
  | nil => simp
  | cons first rest =>
    rw [List.forall_mem_cons] at each
    have head := branchLayout_nested true each.1
    have tail : Ensures (fun texts => ∀ t ∈ texts, Nested t) (rest.mapM (branchLayout false)) :=
      .mapM fun branch inside => branchLayout_nested false (each.2 branch inside)
    simp +contextual [head.use, tail.use]

theorem transitionsLayout_nested {keyword : String} (front : Nested keyword) (ok : p.Bracketed) :
    Ensures Nested (transitionsLayout keyword p) := by
  simp +contextual [transitionsLayout, ok, front _]

theorem stateLayout_nested {id strong sections weak isInitial : Printed} (name : id.Bracketed)
    (above : strong.Bracketed) (inner : sections.Bracketed) (below : weak.Bracketed) :
    Ensures Nested (stateLayout id strong sections weak isInitial) := by
  have front := transitionsLayout_nested (by decide : Plain "unless").nested above
  have back := transitionsLayout_nested (by decide : Plain "until").nested below
  simp +contextual [stateLayout, name, front.use, back.use, inner]

theorem EquationForm.layout_nested (form : EquationForm) (ok : ∀ p ∈ parts, p.Bracketed) :
    Ensures Nested (form.layout parts) := by
  unfold EquationForm.layout
  split <;> simp +contextual [ok, (luidLayout_nested _).use, branchesLayout_nested, leftLayout,
    stateLayout_nested, forkTreeLayout, arrowLayout]

theorem groupOperationWord_nested (ok : p.Bracketed) : Ensures Nested (groupOperationWord p.term) := by
  have lowered := ensures_loweredName ok.plain
  unfold groupOperationWord
  split
  next op _ => cases op <;> simp [GroupOperation.text]
  next => exact lowered

theorem objectLayout_nested {luid locals : Printed} {description : Except Error String}
    (name : luid.Bracketed) (inner : locals.Bracketed) (told : Ensures Nested description) :
    Ensures Nested (objectLayout luid locals description) := by
  simp +contextual [objectLayout, name, inner, told.use]

theorem DiagramForm.description_nested (form : DiagramForm) (ok : ∀ p ∈ parts, p.Bracketed) :
    Ensures Nested (form.description parts) := by
  unfold DiagramForm.description
  split <;> simp +contextual [ok, blockLayout, wireLayout, (groupOperationWord_nested _).use]

theorem DiagramForm.layout_nested (form : DiagramForm) (ok : ∀ p ∈ parts, p.Bracketed) :
    Ensures Nested (form.layout parts) := by
  have told := form.description_nested ok
  unfold DiagramForm.layout
  split <;> simp +contextual [ok, connectionLayout, objectLayout_nested, told]

theorem sectionLayout_nested {keyword terminator : String} (front : Nested keyword)
    (back : Nested terminator) (ok : p.Bracketed) :
    Ensures Nested (sectionLayout keyword terminator p) := by
  simp +contextual [sectionLayout, sectionText, ok, front _, back _]

theorem SectionForm.layout_nested (form : SectionForm) (ok : ∀ p ∈ parts, p.Bracketed) :
    Ensures Nested (form.layout parts) := by
  unfold SectionForm.layout
  split <;> simp +contextual [ok, sectionLayout_nested]

theorem flowsLayout_nested {flows : List Printed} (ok : ∀ p ∈ flows, p.Bracketed) :
    Ensures Nested (flowsLayout flows) := by
  have texts : Ensures (fun texts => ∀ t ∈ texts, Nested t) (flows.mapM Printed.text) :=
    .mapM fun flow inside => (ok flow inside).text
  simp only [flowsLayout, ensures_bind, texts.use, ensures_pure]
  intro row each _
  split
  · simp
  · simp +contextual [each]

theorem sizeParametersLayout_nested (ok : p.Bracketed) : Ensures Nested (sizeParametersLayout p) := by
  have size {item : Printed} (ok : item.Bracketed) : Ensures Nested (sizeLayout item) := by
    simp +contextual [sizeLayout, ok, Name.protect]
  simp only [sizeParametersLayout, ensures_bind, ok.ensures_items]
  intro items each _
  have texts : Ensures (fun texts => ∀ t ∈ texts, Nested t) (items.mapM sizeLayout) :=
    .mapM fun item inside => size (each item inside)
  simp +contextual [texts.use]

theorem spacedLayout_nested (ok : p.Bracketed) : Ensures Nested (spacedLayout p) := by
  simp only [spacedLayout, ensures_bind, ok.ensures_texts, ensures_pure]
  intro row each _
  split
  · simp
  · simp +contextual [each]

theorem signatureLayout_nested
    {id isNode inputs outputs sizes constraints specialization pragmas : Printed}
    (name : id.Bracketed) (ins : inputs.Bracketed) (outs : outputs.Bracketed)
    (params : sizes.Bracketed) (kinds : constraints.Bracketed) (special : specialization.Bracketed)
    (marks : pragmas.Bracketed) :
    Ensures Nested (signatureLayout id isNode inputs outputs sizes constraints specialization
      pragmas) := by
  simp +contextual [signatureLayout, name, ins, outs, (flowsLayout_nested _).use,
    (sizeParametersLayout_nested params).use, (spacedLayout_nested kinds).use, special,
    (spacedLayout_nested marks).use]

theorem bodyLayout_nested (ok : p.Bracketed) : Ensures Nested (bodyLayout p) := by
  unfold bodyLayout
  split <;> simp +contextual [ok]

theorem DeclForm.layout_nested (form : DeclForm) (ok : ∀ p ∈ parts, p.Bracketed) :
    Ensures Nested (form.layout parts) := by
  unfold DeclForm.layout
  split <;> simp +contextual [ok, flowLayout, flowMarkup, (signatureLayout_nested _ _ _ _ _ _ _).use,
    (bodyLayout_nested _).use]

theorem ModuleForm.layout_nested (form : ModuleForm) (ok : ∀ p ∈ parts, p.Bracketed) :
    Ensures Nested (form.layout parts) := by
  unfold ModuleForm.layout
  split <;> simp +contextual [ok, declarationsLayout, moduleLayout, or_imp, forall_and]

theorem printedPragmas_bracketed (ok : p.Bracketed) :
    Ensures Printed.Bracketed (Path.printedPragmas p) := by
  have placed (place : List Nat) :
      ((p.place? place).getD (.mk .absent (.ok noneText) [])).Bracketed := by
    cases found : p.place? place with
    | none => exact .mk rfl ((ensures_ok _).mpr (by decide : Plain noneText).nested) (by simp)
    | some q => exact ok.place found
  simp only [Path.printedPragmas, ensures_bind]
  intro found _
  split
  next => exact (ensures_pure _).mpr (placed _)
  next => exact (ensures_pure _).mpr (placed _)
  next => exact (ensures_pure _).mpr (.mk rfl (by simp) (by simp))

theorem pathLayout_nested (ok : p.Bracketed) : Ensures Nested (pathLayout p) := by
  unfold pathLayout
  split
  · simp only [ensures_bind, (printedPragmas_bracketed ok).use]
    intro pragmas marks _
    have front : Ensures Nested (pragmasLayout pragmas) := by simp +contextual [pragmasLayout, marks]
    simp only [front.use, (ensures_fullName ok.plain).use]
    intro before nested _ name known _
    split
    next name _ =>
      have named := known name rfl
      simp [nested _, named _]
    next => simp
  · simp +contextual [ok]

theorem NameForm.layout_nested (form : NameForm) (ok : ∀ p ∈ parts, p.Bracketed) :
    Ensures Nested (form.layout parts) := by
  unfold NameForm.layout
  split <;> simp +contextual [ok, pragmasLayout, pathLayout_nested]

theorem Form.layout_nested (form : Form) (ok : ∀ p ∈ parts, p.Bracketed) :
    Ensures Nested (form.layout parts) := by
  cases form with
  | _ f => exact f.layout_nested ok

theorem Form.text_nested (form : Form) (ok : ∀ p ∈ parts, p.Bracketed) :
    Ensures Nested (form.text parts) := by
  unfold Form.text
  split
  next silent =>
    have title : Plain form.title := by
      cases form with
      | _ f => cases f <;> cases silent <;> decide +kernel
    simp [title.nested _]
  next => exact form.layout_nested ok

theorem inList_nested (ok : p.Bracketed) : Ensures Nested p.inList := by
  unfold Printed.inList
  split
  next s same => exact (ensures_ok _).mpr (ok.plain_text same).quoted.nested
  next => simp
  next c _ => simp [(plain_fullName c).nested _, (plain_textOfInt c.ordinal).nested _]
  next => exact ok.text

theorem listText_nested (ok : ∀ p ∈ parts, p.Bracketed) : Ensures Nested (listText parts) := by
  have texts : Ensures (fun texts => ∀ t ∈ texts, Nested t) (parts.mapM Printed.inList) :=
    .mapM fun item inside => inList_nested (ok item inside)
  simp +contextual [listText, texts.use]

end Layouts

/-! ### Terms -/

theorem Term.atomText_nested {t : Term} (plain : t.isBracketFree = true) :
    Ensures Nested t.atomText := by
  cases t with
  | truth b => exact (ensures_ok _).mpr (Plain.nested (by cases b <;> decide))
  | number n => exact (ensures_ok _).mpr (plain_textOfInt n).nested
  | real x => exact (ensures_ok _).mpr (plain_real x).nested
  | text s => exact (ensures_ok _).mpr (Term.isBracketFree_text.mp plain).nested
  | constant c => exact (ensures_ok _).mpr (plain_fullName c).nested
  | absent => exact (ensures_ok _).mpr (by decide : Plain noneText).nested
  | anyIdentifier => exact (ensures_ok _).mpr (Plain.nested (by decide))
  | pragma content =>
    rw [Term.isBracketFree] at plain
    cases content with
    | text s => exact (ensures_ok _).mpr (Term.isBracketFree_text.mp plain).nested
    | _ => exact ensures_error _
  | _ => exact ensures_error _

mutual

theorem Term.printed_bracketed {t : Term} (plain : t.isBracketFree = true) : t.printed.Bracketed := by
  have atom := Term.atomText_nested plain
  cases t with
  | list items =>
    rw [Term.isBracketFree] at plain
    rw [Term.printed]
    exact .mk plain (listText_nested (Term.printedAll_bracketed plain)) (Term.printedAll_bracketed plain)
  | node form parts =>
    rw [Term.isBracketFree] at plain
    rw [Term.printed]
    exact .mk plain (form.text_nested (Term.printedAll_bracketed plain))
      (Term.printedAll_bracketed plain)
  | _ => exact .mk plain atom (by simp)

theorem Term.printedAll_bracketed {ts : List Term} (plain : Term.areBracketFree ts = true) :
    ∀ p ∈ Term.printedAll ts, p.Bracketed := by
  cases ts with
  | nil => simp [Term.printedAll]
  | cons t rest =>
    obtain ⟨first, others⟩ : t.isBracketFree = true ∧ Term.areBracketFree rest = true := by
      simpa [Term.areBracketFree] using plain
    rw [Term.printedAll, List.forall_mem_cons]
    exact ⟨Term.printed_bracketed first, Term.printedAll_bracketed others⟩

end

/-- The brackets match in the text of a term that has none in its own texts. -/
theorem Term.print_matched {t : Term} {text : String} (plain : t.isBracketFree = true)
    (printed : t.print = .ok text) : Matched text.toList :=
  ((Term.printed_bracketed plain).text text printed).matched

/-- A text that is printed is that of the term which is then seen; if no text in that term has a
bracket, the brackets in the printed text match. -/
theorem printed_text_is_bracketed {reader : Reader} {w w' : Workspace} {slot : Slot} {text : String}
    (printed : perform (Work.print slot) reader w = (.ok text, w')) :
    ∃ t, w'.store.view slot = .ok t ∧ t.print = .ok text ∧
      (t.isBracketFree = true → Matched text.toList) := by
  have shown := observe_answer printed
  cases seen : w'.store.view slot with
  | error e =>
    rw [seen] at shown
    cases shown
  | ok t =>
    rw [seen] at shown
    exact ⟨t, rfl, shown, fun plain => Term.print_matched plain shown⟩

def sampleCells : Array Cell :=
  #[.node (.name .identifier) [.atom (.text "speed"), .ref 1, .atom .absent, .atom (.truth false)] .none,
    .list [], .list [.ref 0], .node (.name .path) [.ref 2] .none, .node (.expr .path) [.ref 3] .none,
    .node (.type .predefined) [.atom (.constant (.predefinedType .int32))] .none,
    .node (.expr .conversion) [.ref 4, .ref 5] .none,
      .node (.expr .slice) [.ref 6, .ref 4, .ref 4] .none,
    .node (.expr .makeStruct) [.ref 7, .atom .absent] .none]

theorem sample_record_is_bracketed :
    perform (Work.print (.ref 8)) (.ofTable []) { store := ⟨sampleCells⟩ } =
        (.ok "\x7b(speed :> int32)[speed .. speed]\x7d", { store := ⟨sampleCells⟩ }) ∧
      Matched "\x7b(speed :> int32)[speed .. speed]\x7d".toList := by
  have printed : perform (Work.print (.ref 8)) (.ofTable []) { store := ⟨sampleCells⟩ } =
      (.ok "\x7b(speed :> int32)[speed .. speed]\x7d", { store := ⟨sampleCells⟩ }) :=
    observe_ok (by with_unfolding_all rfl)
  obtain ⟨t, seen, -, matched⟩ := printed_text_is_bracketed printed
  have free : t.isBracketFree = true := by
    cases seen
    decide
  exact ⟨printed, matched free⟩

end SwanModel
