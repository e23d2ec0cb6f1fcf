import SwanModel.Proofs.Model.Declarations

/-!
# A lazy model answers as an eager one

Whatever was asked before, a query that is carried through gives what parsing every source from
scratch gives.
-/

namespace SwanModel

variable {body : Bodies} {supply : Supply} {b : Browser}

/-- Whether a file can be loaded into a browser where nothing is loaded. -/
def Supply.loads (supply : Supply) (file : SwanFile) : Bool :=
  (perform (Browse.loadFile file) supply ⟨{}, {}⟩).1.isOk

theorem loadable_of_loads {file : SwanFile} (loads : supply.loads file = true) :
    ∃ t, supply.parse file = .ok t ∧ t.isLoadable = true := by
  unfold Supply.loads at loads
  rcases ran : perform (Browse.loadFile file) supply ⟨{}, {}⟩ with ⟨e | module, b⟩
  · rw [ran] at loads
    cases loads
  · exact ((loadFile_spec file supply _).of_ok ran).1

theorem moduleAt_holdsParsed (faithful : b.Faithful supply) {position : Nat} {file : SwanFile}
    (found : b.model.source? position = some file) (loads : supply.loads file = true) :
    ∃ module b', perform (Browse.moduleAt position) supply b = (.ok module, b') ∧
      b'.HoldsParsed supply position module := by
  cases present : b.model.module? position with
  | some module => exact ⟨module, b, moduleAt_loaded present, faithful position module present⟩
  | none =>
    obtain ⟨module, b', ran⟩ := load_succeeds found (loadable_of_loads loads)
    obtain ⟨file', t, found', parsed, held⟩ := (load_ok ran).held
    refine ⟨module, b', (moduleAt_unloaded present).trans ran, file', t, ?_, parsed, held.of_none⟩
    rw [(load_ok ran).loading.source?, found']

theorem declarationsAt_held (faithful : b.Faithful supply) {position : Nat} {file : SwanFile}
    (found : b.model.source? position = some file) (loads : supply.loads file = true) :
    ∃ slots b', perform (Browse.declarationsAt position) supply b = (.ok slots, b') ∧
      Loading supply b b' ∧
        HeldAll (BodyOf supply.reader) b'.store (supply.declarations file) slots := by
  obtain ⟨module, b', ran, holds⟩ := moduleAt_holdsParsed faithful found loads
  have loading : Loading supply b b' := Keeps.after ran
  obtain ⟨slots, items, held⟩ := moduleItems_held holds ((loading.source? position).trans found)
  exact ⟨slots, b', (perform_bind_ok ran _).trans items, loading, held⟩

theorem eachIn_held {query : ModelQuery} (asks : query.isFilter = false) {ts : List Term}
    {slots : List Slot} (declared : ∀ t ∈ ts, t.isDeclaration = true)
    (held : HeldAll body b.store ts slots) :
    ∃ picked, perform (Cursor.eachIn (Browse.select query) slots) supply b = (.ok picked, b) ∧
      HeldAll body b.store (ts.flatMap query.picks) picked := by
  induction ts generalizing slots with
  | nil =>
    cases held
    exact ⟨[], rfl, .nil⟩
  | cons t ts ih =>
    cases held with
    | cons head tail =>
      obtain ⟨first, ranFirst, heldFirst⟩ := select_held (declared t List.mem_cons_self) head asks
      obtain ⟨rest, ranRest, heldRest⟩ :=
        ih (fun u member => declared u (List.mem_cons_of_mem t member)) tail
      refine ⟨first ++ rest, ?_, heldFirst.append heldRest⟩
      rw [Cursor.eachIn, perform_bind_ok ranFirst, perform_bind_ok ranRest]
      rfl

theorem eachAhead_held {query : ModelQuery} (asks : query.isFilter = false) {ahead : List Nat}
    {files : List SwanFile} (faithful : b.Faithful supply)
    (found : List.Forall₂ (fun p file => b.model.source? p = some file) ahead files)
    (loads : ∀ file ∈ files, supply.loads file = true) :
    ∃ picked b', perform (Cursor.eachAhead (Browse.select query) ahead) supply b = (.ok picked, b') ∧
      Loading supply b b' ∧
      HeldAll (BodyOf supply.reader) b'.store
        ((files.flatMap supply.declarations).flatMap query.picks) picked := by
  induction ahead generalizing b files with
  | nil =>
    cases found
    exact ⟨[], b, rfl, Lasting.refl supply b, .nil⟩
  | cons position ahead ih =>
    cases found with
    | @cons _ file _ files here there =>
      obtain ⟨slots, b₁, entered, loading, held⟩ :=
        declarationsAt_held faithful here (loads file List.mem_cons_self)
      obtain ⟨first, ranFirst, heldFirst⟩ : ∃ picked, perform _ supply b₁ = (.ok picked, b₁) ∧ _ :=
        eachIn_held asks (declarations_isDeclaration file) held
      have there' := there.imp fun p file source => (loading.source? p).trans source
      obtain ⟨rest, b', ranRest, later, heldRest⟩ :=
        ih (faithful.later loading) there' fun other member =>
          loads other (List.mem_cons_of_mem _ member)
      refine ⟨first ++ rest, b', ?_, Lasting.trans loading later, ?_⟩
      · rw [Cursor.eachAhead, perform_bind_ok entered, perform_bind_ok ranFirst, perform_bind_ok ranRest]
        rfl
      · rw [List.flatMap_cons, List.flatMap_append]
        exact (heldFirst.mono later.refines).append heldRest

theorem positions_sources (model : Model) :
    List.Forall₂ (fun p file => model.source? p = some file) model.positions model.sources := by
  refine List.forall₂_iff_get.mpr ⟨by simp [Model.positions, Model.sources], fun i _ inside => ?_⟩
  rw [← Model.sources_getElem?]
  simp [Model.positions]

/-! ### Any history -/

inductive Deed where
  | move (move : Move)
  /-- Loads every source, also those that are loaded. -/
  | loadAll
  /-- Looks at what is loaded. -/
  | look (x : Browse Unit) (looks : Keeps Looking x)

namespace Session

def act (supply : Supply) (s : Session) : Deed → Session
  | .move move => (s.step supply move).2
  | .loadAll => { s with browser := (perform Browse.loadAll supply s.browser).2 }
  | .look x _ => { s with browser := (perform x supply s.browser).2 }

def after (supply : Supply) (s : Session) (history : List Deed) : Session := history.foldl (act supply) s

theorem act_loading (s : Session) (deed : Deed) :
    Loading supply s.browser (s.act supply deed).browser := by
  cases deed with
  | move move => exact step_loading s move
  | loadAll => exact Keeps.keeps (x := Browse.loadAll) supply s.browser
  | look x looks => exact (looks.keeps supply s.browser).loading

theorem after_loading (s : Session) (history : List Deed) :
    Loading supply s.browser (s.after supply history).browser := by
  induction history generalizing s with
  | nil => exact Lasting.refl supply s.browser
  | cons deed rest ih => exact Lasting.trans (act_loading s deed) (ih (s.act supply deed))

end Session

/-- After any history, a query that is carried through succeeds and gives what it takes from the
declarations that parsing every source from scratch gives, in the order of the sources. -/
theorem ask_gives_what_parsing_gives (supply : Supply) (sources : List SwanFile)
    (loads : ∀ file ∈ sources, supply.loads file = true) (workspace : Workspace)
    (history : List Deed) (query : ModelQuery) (asks : query.isFilter = false) :
    ∃ slots b, perform (Browse.ask query pure) supply
        ((Session.opening sources workspace).after supply history).browser = (.ok slots, b) ∧
      HeldAll (BodyOf supply.reader) b.store
        ((sources.flatMap supply.declarations).flatMap query.picks) slots := by
  have loading : Loading supply _ _ := Session.after_loading (Session.opening sources workspace) history
  have faithful := (Session.opening_faithful sources workspace).later loading
  have same : ((Session.opening sources workspace).after supply history).browser.model.sources =
      sources := by
    rw [loading.sources]
    exact Model.sources_ofSources sources
  have found :=
    positions_sources ((Session.opening sources workspace).after supply history).browser.model
  rw [same] at found
  obtain ⟨slots, b, ran, -, held⟩ := eachAhead_held asks faithful found loads
  refine ⟨slots, b, ?_, held⟩
  rw [ask_eq_collect]
  simp only [Generator.collect, Generator.start, Cursor.each, Cursor.start, Cursor.eachIn, pure_bind,
    List.nil_append, bind_pure]
  exact ran

def sharedType : Supply where
  files := .ofListing [("a.swan", some "type T;"), ("b.swani", some "type T;")]
  reader :=
    let type : ParseTree := .node none []
      [("TypeId", .identifier (.text "T") (.list [])), ("TypeDef", .node (some "TDefNone") [] [])]
    let block : ParseTree := .node (some "DType") [.list [type], .absent] []
    let module : ParseTree := .node none [.node none [] [("MDecls", .list [block])], .absent] []
    ⟨fun _ _ => ⟨[], .tree module⟩, module.height⟩

/-- The types of both files are found after a query that stopped in the first file, and a second
load. -/
theorem types_after_stopping_early :
    (∀ file ∈ [SwanFile.ofText "a.swan", .ofText "b.swani"], sharedType.loads file = true) ∧
    ∃ slots b, perform (Browse.ask .types pure) sharedType
        ((Session.opening [.ofText "a.swan", .ofText "b.swani"] {}).after sharedType
          [.move (.query (.ofQuery .declarations)), .move (.next 0), .loadAll]).browser =
            (.ok slots, b) ∧
      HeldAll (BodyOf sharedType.reader) b.store
        (([SwanFile.ofText "a.swan", .ofText "b.swani"].flatMap sharedType.declarations).flatMap
          ModelQuery.types.picks)
        slots :=
  ⟨by decide +kernel, ask_gives_what_parsing_gives sharedType _ (by decide +kernel) {} _ .types rfl⟩

end SwanModel
