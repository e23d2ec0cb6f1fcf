import SwanModel.Proofs.Model.Session

/-!
# What queries take from declarations

A query takes from each declaration of a source what `ModelQuery.picks` says.
-/

namespace SwanModel

variable {form : Form} {parts : List Term} {block : ModuleForm} {position : Nat}

variable {body : Bodies} {store : Store} {supply : Supply} {b b' : Browser}

/-! ### What is expected -/

def Supply.declarations (supply : Supply) (file : SwanFile) : List Term :=
  match supply.parse file with
  | .ok module => module.declarations
  | .error _ => []

def Term.membersOf (block : ModuleForm) : Term → List Term
  | .node (.module form) [.list members] => if form = block then members else []
  | _ => []

/-- What a declaration contributes to the answer of a query. A filter is left out: it may ask
anything. -/
def ModelQuery.picks : ModelQuery → Term → List Term
  | .declarations, t => [t]
  | .types, t => t.membersOf .types
  | .sensors, t => t.membersOf .sensors
  | .constants, t => t.membersOf .constants
  | .groups, t => t.membersOf .groups
  | .userOperators, t => if t.is (.decl .operator) then [t] else []
  | .signatures, t => if t.is (.decl .signature) || t.is (.decl .operator) then [t] else []
  | .filter _, _ => []

def ModelQuery.isFilter : ModelQuery → Bool
  | .filter _ => true
  | _ => false

/-! ### Looking into what is held -/

theorem itemsOf_held {items : List Term} {id index : Nat}
    (held : Held body b.store (.node form parts) (.ref id))
    (found : parts[index]? = some (.list items)) :
    ∃ slots, perform (Browse.itemsOf id index) supply b = (.ok slots, b) ∧
      HeldAll body b.store items slots := by
  cases held with
  | node cell members =>
    obtain ⟨slot, place, list⟩ := members.getElem? found
    cases list with
    | plain plain => cases plain
    | list listCell items =>
      refine ⟨_, ?_, items⟩
      rw [Browse.itemsOf, perform_work, perform_bind_ok perform_store]
      simp [Store.place?, Store.child?, cell, place, Store.members, listCell]

theorem perform_formOf? (slot : Slot) :
    perform (Browse.formOf? slot) supply b = (.ok (b.store.form? slot), b) := rfl

theorem form?_held {slot : Slot} (held : Held body store (.node form parts) slot) :
    ∃ id, slot = .ref id ∧ store.form? slot = some form := by
  cases held with
  | plain plain => cases plain
  | node cell members => exact ⟨_, rfl, by simp [Store.form?, cell]⟩

theorem isDeclaration_node {t : Term} (declared : t.isDeclaration = true) :
    ∃ form parts, t = .node form parts := by
  cases t with
  | node form parts => exact ⟨form, parts, rfl⟩
  | _ => cases declared

theorem membersOf_other (other : form ≠ .module block) (parts : List Term) :
    (Term.node form parts).membersOf block = [] := by
  unfold Term.membersOf
  split
  · rename_i same
    cases same
    simp_all
  · rfl

theorem isDeclaration_block (isBlock : block.isBlock = true)
    (declared : (Term.node (.module block) parts).isDeclaration = true) :
    ∃ members, parts = [.list members] := by
  simp only [Term.isDeclaration, isBlock, Bool.not_true, Bool.false_or] at declared
  split at declared
  · exact ⟨_, rfl⟩
  · cases declared

section
variable {t : Term} {slot : Slot} (declared : t.isDeclaration = true) (held : Held body b.store t slot)
include declared held

theorem blockMembers_held (isBlock : block.isBlock = true) :
    ∃ picked, perform (Browse.blockMembers block slot) supply b = (.ok picked, b) ∧
      HeldAll body b.store (t.membersOf block) picked := by
  obtain ⟨form, parts, rfl⟩ := isDeclaration_node declared
  obtain ⟨id, rfl, known⟩ := form?_held held
  rw [Browse.blockMembers, perform_bind_ok (perform_formOf? _), known]
  by_cases same : form = .module block
  · subst same
    obtain ⟨members, rfl⟩ := isDeclaration_block isBlock declared
    have inside : [Term.list members][0]? = some (.list members) := rfl
    simpa [Term.membersOf] using itemsOf_held held inside
  · refine ⟨[], ?_, ?_⟩
    · simp [same]
    · rw [membersOf_other same]
      exact .nil

theorem ofForms_held (forms : List Form) :
    ∃ picked, perform (Browse.ofForms forms slot) supply b = (.ok picked, b) ∧
      HeldAll body b.store (if forms.any (t.is ·) then [t] else []) picked := by
  obtain ⟨form, parts, rfl⟩ := isDeclaration_node declared
  obtain ⟨id, rfl, known⟩ := form?_held held
  have asked : forms.any ((Term.node form parts).is ·) = forms.contains form := by
    rw [Bool.eq_iff_iff]
    simp [Term.is, Term.form?]
  rw [Browse.ofForms, perform_bind_ok (perform_formOf? _), known, asked]
  by_cases among : forms.contains form = true
  · simp only [among, if_true]
    exact ⟨_, rfl, .cons held .nil⟩
  · simp only [among]
    exact ⟨_, rfl, .nil⟩

theorem select_held {query : ModelQuery} (asks : query.isFilter = false) :
    ∃ picked, perform (Browse.select query slot) supply b = (.ok picked, b) ∧
      HeldAll body b.store (query.picks t) picked := by
  cases query with
  | declarations => exact ⟨[slot], rfl, .cons held .nil⟩
  | types => exact blockMembers_held declared held rfl
  | sensors => exact blockMembers_held declared held rfl
  | constants => exact blockMembers_held declared held rfl
  | groups => exact blockMembers_held declared held rfl
  | userOperators =>
    simpa [ModelQuery.picks, Browse.select] using ofForms_held declared held [.decl .operator]
  | signatures =>
    simpa [ModelQuery.picks, Browse.select]
      using ofForms_held declared held [.decl .signature, .decl .operator]
  | filter test => cases asks

end

/-! ### Going through the sources -/

theorem isModule_cases {t : Term} (isModule : t.isModule = true) :
    ∃ form id uses, t = .node (.module form) [id, .list uses, .list t.declarations] ∧
      ∀ d ∈ t.declarations, d.isDeclaration = true := by
  unfold Term.isModule at isModule
  split at isModule
  · rw [Bool.and_eq_true, List.all_eq_true] at isModule
    exact ⟨_, _, _, rfl, isModule.2⟩
  · cases isModule

theorem declarations_isDeclaration (file : SwanFile) :
    ∀ t ∈ supply.declarations file, t.isDeclaration = true := by
  unfold Supply.declarations
  split
  · rename_i parsed
    obtain ⟨_, _, _, -, inside⟩ := isModule_cases (parse_isModule parsed)
    exact inside
  · simp

/-- The declarations of a module that is held as parsed are those of its source. -/
theorem moduleItems_held {module : Nat} (holds : b.HoldsParsed supply position module) {file : SwanFile}
    (found : b.model.source? position = some file) :
    ∃ slots, perform (Browse.itemsOf module Browse.declarationsIndex) supply b = (.ok slots, b) ∧
      HeldAll (BodyOf supply.reader) b.store (supply.declarations file) slots := by
  obtain ⟨file', t, found', parsed, held⟩ := holds
  rw [found] at found'
  cases found'
  obtain ⟨form, id, uses, shape, -⟩ := isModule_cases (parse_isModule parsed)
  rw [shape] at held
  have declared : supply.declarations file = t.declarations := by
    unfold Supply.declarations
    rw [parsed]
  rw [declared]
  exact itemsOf_held held rfl

theorem moduleAt_loaded {module : Nat} (found : b.model.module? position = some module) :
    perform (Browse.moduleAt position) supply b = (.ok module, b) := by
  rw [Browse.moduleAt, perform_bind_ok perform_model, found]
  rfl

theorem moduleAt_unloaded (absent : b.model.module? position = none) :
    perform (Browse.moduleAt position) supply b = perform (Browse.load position) supply b := by
  rw [Browse.moduleAt, perform_bind_ok perform_model, absent]

end SwanModel
