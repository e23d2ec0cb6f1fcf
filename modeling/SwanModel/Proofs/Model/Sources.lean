import SwanModel.Model.Query
import SwanModel.Proofs.Convert.Modules
import SwanModel.Proofs.Store.Bodies

/-!
# Loading sources

A file is loaded exactly if it parses to a module that can be put into a store, and the module is
then held as it was parsed.
-/

namespace SwanModel

variable {α : Type} {supply : Supply} {b b' : Browser}

abbrev Browser.store (b : Browser) : Store := b.workspace.store

def Looking (supply : Supply) (b b' : Browser) : Prop :=
  b'.model = b.model ∧ Refines (BodyOf supply.reader) b.store b'.store

instance : Lasting Looking where
  refl _ b := ⟨rfl, .refl b.store⟩
  trans first second := ⟨second.1.trans first.1, first.2.trans second.2⟩

theorem perform_work (x : Work α) (supply : Supply) (b : Browser) :
    perform (Browse.work x) supply b =
      ((perform x supply.reader b.workspace).1,
        { b with workspace := (perform x supply.reader b.workspace).2 }) := by
  have ran : (x supply.reader).run b.workspace = perform x supply.reader b.workspace := rfl
  simp only [Browse.work, perform_bind, perform_read, perform_get, ran]
  rcases perform x supply.reader b.workspace with ⟨_ | _, _⟩ <;> rfl

theorem work_looking {x : Work α} (refining : Keeps Refining x) : Keeps Looking (Browse.work x) where
  keeps supply b := by
    rw [perform_work]
    exact ⟨rfl, refining.keeps supply.reader b.workspace⟩

instance (x : Work α) [Keeps Refining x] : Keeps Looking (Browse.work x) := work_looking inferInstance

theorem SucceedsIff.work {x : Work α} {condition : Prop} {post : α → Workspace → Prop}
    (h : SucceedsIff x supply.reader b.workspace condition post) :
    SucceedsIff (Browse.work x) supply b condition fun a b' => b'.model = b.model ∧
      post a b'.workspace := by
  rw [SucceedsIff, perform_work]
  rcases ran : perform x supply.reader b.workspace with ⟨e | a, w⟩
  · rwa [SucceedsIff, ran] at h
  · obtain ⟨holds, reached⟩ := h.of_ok ran
    exact ⟨holds, rfl, reached⟩

@[simp] theorem perform_model : perform Browse.model supply b = (.ok b.model, b) := rfl

instance : Keeps Looking Browse.model := ⟨fun _ b => Lasting.refl _ b⟩

/-! ### Parsing -/

/-- The module that a file is parsed to, if nothing was read before. -/
def Supply.parse (supply : Supply) (file : SwanFile) : Except Error Term := do
  let kind ← Browse.kindOf file
  let (module, _) ← (perform (parseModule kind (file.source supply.files)) supply.reader {}).1
  return module

theorem parse_of_ok {file : SwanFile} {kind : ModuleKind} {t : Term} {information : Information}
    {s s' : Reading} (known : Browse.kindOf file = .ok kind)
    (h : perform (parseModule kind (file.source supply.files)) supply.reader s =
      (.ok (t, information), s')) :
    supply.parse file = .ok t := by
  obtain ⟨_, fresh⟩ := parseModule_anywhere h {}
  simp [Supply.parse, known, fresh, bind, Except.bind, pure, Except.pure]

theorem parse_ok {file : SwanFile} {t : Term} (h : supply.parse file = .ok t) :
    ∃ kind information, Browse.kindOf file = .ok kind ∧ ∀ s, ∃ s',
      perform (parseModule kind (file.source supply.files)) supply.reader s =
        (.ok (t, information), s') := by
  unfold Supply.parse at h
  cases known : Browse.kindOf file with
  | error e => simp [known, bind, Except.bind] at h
  | ok kind =>
    rcases fresh : perform (parseModule kind (file.source supply.files)) supply.reader {} with
      ⟨e | ⟨u, information⟩, s⟩
    · simp [known, fresh, bind, Except.bind] at h
    · obtain rfl : u = t := by simpa [known, fresh, bind, Except.bind, pure, Except.pure] using h
      exact ⟨kind, information, rfl, parseModule_anywhere fresh⟩

theorem parse_isModule {file : SwanFile} {t : Term} (h : supply.parse file = .ok t) :
    t.isModule = true := by
  obtain ⟨kind, information, _, everywhere⟩ := parse_ok h
  obtain ⟨_, parsed⟩ := everywhere {}
  exact parseModule_isModule parsed

/-! ### Loading -/

instance (file : SwanFile) : Keeps Looking (Browse.loadFile file) := by
  unfold Browse.loadFile
  refine Keeps.bind inferInstance fun supply => work_looking (refining_of_growing ?_)
  refine Keeps.bind inferInstance fun kind => Keeps.bind inferInstance fun (module, _) =>
    Keeps.bind inferInstance fun slot => ?_
  split
  · rename_i id
    have owned : Keeps Growing (Work.modifyStore (·.setOwner id .model)) :=
      ⟨fun _ _ => grows_setOwner id .model⟩
    infer_instance
  · infer_instance

structure Placed (supply : Supply) (file : SwanFile) (b : Browser) (id : Nat) (b' : Browser) : Prop where
  model : b'.model = b.model
  grows : Grows 0 b.store b'.store
  held : ∃ t, supply.parse file = .ok t ∧ Held .none b'.store t (.ref id)

theorem isModule_node {t : Term} (isModule : t.isModule = true) :
    ∃ form parts, t = .node form parts := by
  cases t with
  | node form parts => exact ⟨form, parts, rfl⟩
  | _ => cases isModule

/-- A module is put into a store as a construct that belongs to the model. -/
theorem place_spec {t : Term} (isModule : t.isModule = true) (reader : Reader) (w : Workspace) :
    SucceedsIff (do
        match ← Work.load t with
        | .ref id =>
          Work.modifyStore (·.setOwner id .model)
          return id
        | _ => throw .missingMember) reader w (t.isLoadable = true)
      fun id w' => Grows 0 w.store w'.store ∧ Held .none w'.store t (.ref id) := by
  refine ((load_spec t reader w).bind fun slot w₁ ⟨lasts, first⟩ => ?_).congr (and_iff_left trivial)
  obtain ⟨form, parts, rfl⟩ := isModule_node isModule
  have held := lasts (.refl _)
  cases held with
  | plain plain => cases plain
  | @node id _ _ _ _ _ _ =>
    have owned : Grows 0 w₁.store (w₁.store.setOwner id .model) := grows_setOwner id .model
    exact ⟨trivial, first.trans owned, lasts (owned.raise (Nat.zero_le _))⟩

theorem loadFile_spec (file : SwanFile) (supply : Supply) (b : Browser) :
    SucceedsIff (Browse.loadFile file) supply b (∃ t, supply.parse file = .ok t ∧ t.isLoadable = true)
      (Placed supply file b) := by
  unfold Browse.loadFile
  refine .after (perform_read supply b) ?_
  cases known : Browse.kindOf file with
  | error e =>
    refine .failure (by rw [perform_work, perform_bind_error (perform_ofExcept_error e)]) ?_
    simp [Supply.parse, known, bind, Except.bind]
  | ok kind =>
    rcases ran :
      perform (parseModule kind (file.source supply.files)) supply.reader b.workspace.reading with
      ⟨e | ⟨t, information⟩, reading⟩
    · have parsed : perform (Work.ofConversion (parseModule kind (file.source supply.files)))
          supply.reader b.workspace = (.error e, { b.workspace with reading := reading }) := by
        rw [perform_ofConversion, ran]
      refine .failure
        (by rw [perform_work, perform_bind_ok (perform_ofExcept_ok kind), perform_bind_error parsed]) ?_
      rintro ⟨t, elsewhere, -⟩
      obtain ⟨kind', _, known', everywhere⟩ := parse_ok elsewhere
      obtain ⟨_, here⟩ := everywhere b.workspace.reading
      rw [known] at known'
      cases known'
      rw [ran] at here
      cases here
    · have parsed : perform (Work.ofConversion (parseModule kind (file.source supply.files)))
          supply.reader b.workspace =
            (.ok (t, information), { b.workspace with reading := reading }) := by
        rw [perform_ofConversion, ran]
      have fresh := parse_of_ok known ran
      have placed :=
        place_spec (parse_isModule fresh) supply.reader { b.workspace with reading := reading }
      refine SucceedsIff.congr (.weaken
        (.work (.after (perform_ofExcept_ok kind) (.after parsed placed))) ?_) ?_
      · exact fun id b' ⟨model, grows, held⟩ => ⟨model, grows, t, fresh, held⟩
      · simp [fresh]

end SwanModel
