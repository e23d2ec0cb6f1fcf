import SwanModel.Information.Session

/-!
# What reading information changes

Only asking for a key and putting a value inside the value of a key change the information. A model
tree is a copy: what is added to it does not reach the information.
-/

namespace SwanModel

variable {α : Type} {fields : List (String × α)} {empty : α} {key name : String}

/-! ### Fields -/

theorem Json.lookup_eq_none_iff : Json.lookup fields key = none ↔ key ∉ fields.map Prod.fst := by
  rw [Json.lookup, List.lookup_eq_none_iff, List.mem_map]
  simp only [bne_iff_ne, ne_eq, not_exists, not_and, eq_comm (a := key)]

theorem Json.mem_keys_put (value : α) :
    key ∈ (Json.put fields name value).map Prod.fst ↔ key ∈ fields.map Prod.fst ∨ name = key := by
  fun_induction Json.put fields name value with
  | case1 => simp [eq_comm]
  | case2 k v rest same =>
    obtain rfl : k = name := beq_iff_eq.mp same
    simp only [List.map_cons, List.mem_cons, eq_comm (a := k)]
    exact ⟨.inl, fun there => there.elim id .inl⟩
  | case3 k v rest other ih => simp only [List.map_cons, List.mem_cons, ih, or_assoc]

theorem askField_of_mem (there : key ∈ fields.map Prod.fst) :
    (askField empty fields key).2 = fields := by
  unfold askField
  split
  case h_1 => rfl
  case h_2 missing => exact absurd there (Json.lookup_eq_none_iff.mp missing)

theorem mem_keys_askField : key ∈ (askField empty fields name).2.map Prod.fst ↔
    key ∈ fields.map Prod.fst ∨ name = key := by
  by_cases there : name ∈ fields.map Prod.fst
  · rw [askField_of_mem there]
    exact ⟨.inl, fun known => known.elim id fun same => same ▸ there⟩
  · rw [askField, Json.lookup_eq_none_iff.mpr there]
    exact Json.mem_keys_put _

/-- The value of a key is the same before and after another key has been asked for, or the key
itself. -/
theorem askField_askField_fst (empty : α) (fields : List (String × α)) (key name : String) :
    (askField empty (askField empty fields name).2 key).1 = (askField empty fields key).1 := by
  by_cases there : name ∈ fields.map Prod.fst
  · rw [askField_of_mem there]
  · have missing := Json.lookup_eq_none_iff.mpr there
    by_cases same : key = name
    · subst same
      simp only [askField, missing, Json.lookup_put_self]
    · simp only [askField, missing, Json.lookup_put_of_ne fields name _ same]
      cases Json.lookup fields key <;> rfl

/-! ### Inspections of a model tree -/

namespace ModelTree

/-- What an inspection shows is what a new tree shows when it is asked for one thing only. -/
theorem view_eq (tree : ModelTree) :
    tree.view = ⟨ModelTree.key, tree.version.1, tree.children.1, tree.properties.1⟩ := by
  have children : tree.version.2.children.1 = tree.children.1 := askField_askField_fst _ tree.fields _ _
  have properties : tree.version.2.children.2.properties.1 = tree.properties.1 :=
    (askField_askField_fst _ tree.version.2.fields _ _).trans (askField_askField_fst _ tree.fields _ _)
  change View.mk ModelTree.key tree.version.1 tree.version.2.children.1
    tree.version.2.children.2.properties.1 = _
  rw [children, properties]

end ModelTree

/-! ### Steps -/

def InformationStep.named : InformationStep → Option String
  | contains _ => none
  | get key => some key
  | put key _ _ => some key
  | tree => none

namespace Information

variable {info : Information} {step : InformationStep}

def keys (info : Information) : List String := info.fields.map Prod.fst

theorem contains_iff : info.contains key = true ↔ key ∈ info.keys := by simp [contains, keys]

theorem hasInformation_iff : info.hasInformation = true ↔ ∃ key, key ∈ info.keys := by
  rw [← List.isEmpty_eq_false_iff_exists_mem, keys, List.isEmpty_map, hasInformation, Bool.not_eq_true']

theorem mem_keys_get : key ∈ (info.get name).2.keys ↔ key ∈ info.keys ∨ name = key := mem_keys_askField

theorem mem_keys_put (place : Place) (new : Json) :
    key ∈ (info.put name place new).2.keys ↔ key ∈ info.keys ∨ name = key := by
  rcases asked : info.get name with ⟨value, info'⟩
  have known : key ∈ info'.keys ↔ key ∈ info.keys ∨ name = key := by rw [← mem_keys_get, asked]
  simp only [put, asked]
  cases value.change place new with
  | error e => exact known
  | ok changed =>
    -- The value that is put back stands under the key that has been asked for.
    exact (Json.mem_keys_put changed).trans (by rw [← keys, known, or_assoc, or_self])

/-- The model tree is read only if it is there, so that nothing is added. -/
theorem inspect_snd (info : Information) : info.inspect.2 = info := by
  change info.modelTree.2 = info
  unfold modelTree
  split
  case isTrue there => exact congrArg mk (askField_of_mem (contains_iff.mp there))
  case isFalse => rfl

theorem take_of_unnamed (unnamed : step.named = none) : (info.take step).2 = info := by
  cases step with
  | contains key => rfl
  | get key => cases unnamed
  | put key place value => cases unnamed
  | tree => exact info.inspect_snd

/-- A step adds the key that it asks for, and no other. -/
theorem mem_keys_take : key ∈ (info.take step).2.keys ↔ key ∈ info.keys ∨ step.named = some key := by
  cases step with
  | get name => exact mem_keys_get.trans (or_congr_right Option.some_inj.symm)
  | put name place value => exact (mem_keys_put place value).trans (or_congr_right Option.some_inj.symm)
  | contains _ | tree => rw [take_of_unnamed rfl]; simp [InformationStep.named]

/-! ### Runs -/

def after (info : Information) (steps : List InformationStep) : Information :=
  steps.foldl (fun info step => (info.take step).2) info

theorem length_run (info : Information) (steps : List InformationStep) :
    (info.run steps).length = steps.length := by
  induction steps generalizing info with
  | nil => rfl
  | cons step rest ih => exact congrArg (· + 1) (ih _)

theorem run_append (info : Information) (front back : List InformationStep) :
    info.run (front ++ back) = info.run front ++ (info.after front).run back := by
  induction front generalizing info with
  | nil => rfl
  | cons step front ih => exact congrArg (List.cons _) (ih _)

theorem run_at (info : Information) (before after : List InformationStep) (step : InformationStep) :
    (info.run (before ++ step :: after))[before.length]? = some ((info.after before).take step).1 := by
  rw [run_append, List.getElem?_append_right (Nat.le_of_eq (length_run info before)), length_run,
    Nat.sub_self]
  rfl

/-- The keys after some steps: those from before, and those that a step asked for. -/
theorem mem_keys_after (info : Information) (steps : List InformationStep) :
    key ∈ (info.after steps).keys ↔ key ∈ info.keys ∨ ∃ step ∈ steps, step.named = some key := by
  induction steps generalizing info with
  | nil => simp [after]
  | cons step steps ih =>
    have taken : key ∈ (info.after (step :: steps)).keys ↔ _ := ih (info.take step).2
    simp only [taken, mem_keys_take, or_assoc, List.mem_cons, exists_eq_or_imp]

/-- Leaving out a step that asks for no key takes its answer away and changes no other. -/
theorem eraseIdx_run (info : Information) (before after : List InformationStep)
    (unnamed : step.named = none) :
    (info.run (before ++ step :: after)).eraseIdx before.length = info.run (before ++ after) := by
  have first : (info.after before).run (step :: after) =
      ((info.after before).take step).1 :: ((info.after before).take step).2.run after := rfl
  rw [run_append, run_append, first, take_of_unnamed unnamed,
    List.eraseIdx_append_of_length_le (Nat.le_of_eq (length_run info before)), length_run, Nat.sub_self]
  rfl

end Information

/-- A key that is there after some steps with an object: it is one of the object, or one of the
steps has asked for it. -/
def IsKnown (fields : List (String × Json)) (steps : List InformationStep) (key : String) : Prop :=
  key ∈ fields.map Prod.fst ∨ ∃ step ∈ steps, step.named = some key

theorem Information.isKnown_iff (fields : List (String × Json)) (steps : List InformationStep) :
    key ∈ ((Information.ofJson (.obj fields)).after steps).keys ↔ IsKnown fields steps key := by
  rw [mem_keys_after, keys, ofJson, List.map_map]
  rfl

/-- In every session with the information of an object, a key is contained in it exactly if it is
known, there is information exactly if some key is known, and a step that asks for no key changes
the answer of no other step. Neither does one part of an inspection change what another one
shows. -/
theorem reading_changes_no_answer (fields : List (String × Json)) (before after : List InformationStep) :
    (∀ key, ∃ there : Bool,
        ((Information.ofJson (.obj fields)).run (before ++
          .contains key :: after))[before.length]? = some (.ok (.value (.bool there))) ∧
            (there = true ↔ IsKnown fields before key)) ∧
      (∃ shown : Information.View,
        ((Information.ofJson (.obj fields)).run (before ++ .tree :: after))[before.length]? =
          some (.ok (.view shown)) ∧ (shown.hasInformation = true ↔ ∃ key, IsKnown fields before key)) ∧
      (∀ step : InformationStep, step.named = none →
        ((Information.ofJson (.obj fields)).run (before ++ step :: after)).eraseIdx before.length =
          (Information.ofJson (.obj fields)).run (before ++ after)) ∧
      ∀ tree : ModelTree, tree.view =
        ⟨ModelTree.key, tree.version.1, tree.children.1, tree.properties.1⟩ := by
  refine ⟨fun key => ⟨_, Information.run_at _ before after _, ?_⟩,
    ⟨_, Information.run_at _ before after _, ?_⟩,
    fun step unnamed => Information.eraseIdx_run _ before after unnamed, ModelTree.view_eq⟩
  · exact Information.contains_iff.trans (Information.isKnown_iff fields before)
  · exact Information.hasInformation_iff.trans (exists_congr fun key =>
      Information.isKnown_iff fields before)

/-- An inspection that fails on the model tree is put in between two steps. -/
theorem failed_inspection_changes_no_answer :
    (Information.ofJson (.obj [("ModelTree", .int 3)])).inspect.1.modelTree = some (.error .wrongKind) ∧
      ((Information.ofJson (.obj [("ModelTree", .int 3)])).run ([.get "a"] ++
        .tree :: [.contains "a"])).eraseIdx 1 =
          (Information.ofJson (.obj [("ModelTree", .int 3)])).run ([.get "a"] ++ [.contains "a"]) :=
  ⟨rfl, (reading_changes_no_answer [("ModelTree", .int 3)] [.get "a"] [.contains "a"]).2.2.1 .tree rfl⟩

end SwanModel
