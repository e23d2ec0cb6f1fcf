import SwanModel.Proofs.Model.Sources

/-!
# Modules stay what was parsed

Whatever is loaded, when and how often, the module of a source is held as parsing the source gives
it.
-/

namespace SwanModel

variable {α : Type} {supply : Supply} {b b' b'' : Browser}

/-! ### Models -/

namespace Model

variable (model : Model) (position module other : Nat)

theorem sources_getElem? : model.sources[position]? = model.source? position := by
  simp only [sources, source?, List.getElem?_map]

@[simp] theorem length_put : (model.put position module).entries.length = model.entries.length :=
  List.length_modify ..

@[simp] theorem source?_put : (model.put position module).source? other = model.source? other := by
  simp only [source?, put, List.getElem?_modify]
  cases model.entries[other]? with
  | none => rfl
  | some entry => by_cases same : position = other <;> simp [same]

@[simp] theorem sources_put : (model.put position module).sources = model.sources :=
  List.ext_getElem? fun i => by rw [sources_getElem?, sources_getElem?, source?_put]

@[simp] theorem sources_ofSources (sources : List SwanFile) : (ofSources sources).sources = sources := by
  simp [Model.ofSources, Model.sources, Function.comp_def]

variable {position other}

theorem module?_put_self (inside : position < model.entries.length) :
    (model.put position module).module? position = some module := by
  simp [module?, put, inside]

theorem module?_put_of_ne (different : position ≠ other) :
    (model.put position module).module? other = model.module? other := by
  simp [module?, put, different]

end Model

/-! ### Loading one source -/

/-- A source that cannot be loaded leaves the model as it was. -/
theorem load_error {position : Nat} {e : Error}
    (h : perform (Browse.load position) supply b = (.error e, b')) : Looking supply b b' := by
  rw [Browse.load, perform_bind_ok perform_model] at h
  split at h
  · rename_i file _
    rw [perform_bind] at h
    rcases ran : perform (Browse.loadFile file) supply b with ⟨e' | module, b₁⟩
    · rw [ran] at h
      cases h
      exact Keeps.after ran
    · rw [ran] at h
      cases h
  · cases h
    exact Lasting.refl supply b

/-- A source that is loaded gets a new module, which is held as parsing the source gives it. -/
structure Loaded (supply : Supply) (position : Nat) (b : Browser) (module : Nat) (b' : Browser) :
    Prop where
  model : b'.model = b.model.put position module
  grows : Grows 0 b.store b'.store
  held : ∃ file t, b.model.source? position = some file ∧ supply.parse file = .ok t ∧
    Held .none b'.store t (.ref module)

theorem load_ok {position module : Nat}
    (h : perform (Browse.load position) supply b = (.ok module, b')) :
    Loaded supply position b module b' := by
  rw [Browse.load, perform_bind_ok perform_model] at h
  split at h
  · rename_i file found
    obtain ⟨module', b₁, ran, h⟩ := bind_ok h
    obtain ⟨-, placed⟩ := (loadFile_spec file supply b).of_ok ran
    obtain ⟨t, parsed, held⟩ := placed.held
    cases h
    exact ⟨by rw [← placed.model], placed.grows, file, t, found, parsed, held⟩
  · cases h

/-- Whether a file can be loaded does not depend on the browser. -/
theorem load_succeeds {position : Nat} {file : SwanFile} (found : b.model.source? position = some file)
    (loadable : ∃ t, supply.parse file = .ok t ∧ t.isLoadable = true) :
    ∃ module b', perform (Browse.load position) supply b = (.ok module, b') := by
  obtain ⟨module, b₁, ran, -⟩ := (loadFile_spec file supply b).ok loadable
  rw [Browse.load, perform_bind_ok perform_model]
  simp only [found]
  exact ⟨_, _, perform_bind_ok ran _⟩

/-! ### Any work on a model -/

/-- The module at a position is held as parsing its source gives it. -/
def Browser.HoldsParsed (supply : Supply) (b : Browser) (position module : Nat) : Prop :=
  ∃ file t, b.model.source? position = some file ∧ supply.parse file = .ok t ∧
    Held (BodyOf supply.reader) b.store t (.ref module)

/-- The sources stay, the store is refined, and new modules are held as they were parsed. -/
structure Loading (supply : Supply) (b b' : Browser) : Prop where
  sources : b'.model.sources = b.model.sources
  refines : Refines (BodyOf supply.reader) b.store b'.store
  modules : ∀ {position module}, b'.model.module? position = some module →
    b.model.module? position = some module ∨ b'.HoldsParsed supply position module

theorem Loading.source? (loading : Loading supply b b') (position : Nat) :
    b'.model.source? position = b.model.source? position := by
  rw [← Model.sources_getElem?, loading.sources, Model.sources_getElem?]

theorem Browser.HoldsParsed.later {position module : Nat} (holds : b.HoldsParsed supply position module)
    (loading : Loading supply b b') : b'.HoldsParsed supply position module := by
  obtain ⟨file, t, found, parsed, held⟩ := holds
  exact ⟨file, t, (loading.source? position).trans found, parsed, held.mono loading.refines⟩

instance : Lasting Loading where
  refl _ b := ⟨rfl, .refl b.store, .inl⟩
  trans first second := by
    refine ⟨second.sources.trans first.sources, first.refines.trans second.refines, fun found => ?_⟩
    rcases second.modules found with before | new
    · exact (first.modules before).imp_right fun holds => holds.later second
    · exact .inr new

theorem Looking.loading (looking : Looking supply b b') : Loading supply b b' where
  sources := by rw [looking.1]
  refines := looking.2
  modules found := .inl (looking.1 ▸ found)

theorem Loaded.loading {position module : Nat} (loaded : Loaded supply position b module b') :
    Loading supply b b' where
  sources := by rw [loaded.model, Model.sources_put]
  refines := loaded.grows.refines
  modules {other found} present := by
    rw [loaded.model] at present
    by_cases same : position = other
    · subst same
      obtain ⟨file, t, source, parsed, held⟩ := loaded.held
      have inside : position < b.model.entries.length := by
        by_contra outside
        simp [Model.source?, outside] at source
      rw [Model.module?_put_self _ _ inside] at present
      cases present
      refine .inr ⟨file, t, ?_, parsed, held.of_none⟩
      rw [loaded.model, Model.source?_put, source]
    · rw [Model.module?_put_of_ne _ _ same] at present
      exact .inl present

theorem loading_of_looking {x : Browse α} (looking : Keeps Looking x) : Keeps Loading x :=
  ⟨fun supply b => (looking.keeps supply b).loading⟩

instance (position : Nat) : Keeps Loading (Browse.load position) where
  keeps supply b := by
    rcases ran : perform (Browse.load position) supply b with ⟨e | module, b'⟩
    · exact (load_error ran).loading
    · exact (load_ok ran).loading

instance : Keeps Loading Browse.model := loading_of_looking inferInstance

instance (position : Nat) : Keeps Loading (Browse.moduleAt position) := by
  unfold Browse.moduleAt
  refine Keeps.bind inferInstance fun model => ?_
  split <;> infer_instance

instance (id index : Nat) : Keeps Looking (Browse.itemsOf id index) := by
  unfold Browse.itemsOf
  refine work_looking (Keeps.bind inferInstance fun store => ?_)
  split <;> infer_instance

instance (position : Nat) : Keeps Loading (Browse.declarationsAt position) := by
  have (module : Nat) : Keeps Loading (Browse.itemsOf module Browse.declarationsIndex) :=
    loading_of_looking inferInstance
  unfold Browse.declarationsAt
  infer_instance

instance : Keeps Loading Browse.loadAll := by unfold Browse.loadAll; infer_instance

def Browser.Faithful (supply : Supply) (b : Browser) : Prop :=
  ∀ position module, b.model.module? position = some module → b.HoldsParsed supply position module

theorem Browser.Faithful.later (faithful : b.Faithful supply) (loading : Loading supply b b') :
    b'.Faithful supply := by
  intro position module found
  rcases loading.modules found with before | new
  · exact (faithful position module before).later loading
  · exact new

end SwanModel
