import SwanModel.Proofs.Model.Declarations

/-!
# The order in which sources are loaded

`Attempts` says what one move can do to a model: only the first source that is not loaded is ever
tried.
-/

namespace SwanModel

variable {supply : Supply} {b b' : Browser}

/-- The loaded sources are the first `n`. -/
structure Model.LoadedTo (model : Model) (n : Nat) : Prop where
  within : n ≤ model.entries.length
  loaded : ∀ position, (model.module? position).isSome = true ↔ position < n

def Model.afterTries (model : Model) (tried : List Try) : Model :=
  tried.foldl (fun model (position, result) =>
    match result with
    | .ok module => model.put position module
    | .error _ => model) model

/-- The attempts of one move in a model of `length` sources, of which the first `n` are loaded:
sources are loaded one after the other up to the first `n'`, and the next one may be tried and
fail. -/
inductive Attempts (length : Nat) : Nat → List Try → Option Error → Nat → Prop
  | done (n : Nat) : Attempts length n [] none n
  | failed {n : Nat} (inside : n < length) (e : Error) : Attempts length n [(n, .error e)] (some e) n
  | loaded {n n' module : Nat} {tried : List Try} {failure : Option Error} (inside : n < length)
      (rest : Attempts length (n + 1) tried failure n') :
        Attempts length n ((n, .ok module) :: tried) failure n'

namespace Model

variable {model : Model} {n : Nat}

theorem loadedTo_ofSources (sources : List SwanFile) : (ofSources sources).LoadedTo 0 where
  within := Nat.zero_le _
  loaded position := by
    cases source : sources[position]? <;> simp [ofSources, module?, source]

theorem LoadedTo.put (loaded : model.LoadedTo n) (inside : n < model.entries.length) (module : Nat) :
    (model.put n module).LoadedTo (n + 1) where
  within := by
    rw [length_put]
    exact inside
  loaded position := by
    by_cases same : n = position
    · subst same
      simp [module?_put_self model module inside]
    · rw [module?_put_of_ne model module same, loaded.loaded]
      omega

theorem LoadedTo.absent (loaded : model.LoadedTo n) : model.module? n = none := by
  have := loaded.loaded n
  simpa using this

theorem LoadedTo.allLoaded_iff (loaded : model.LoadedTo n) : model.allLoaded = true ↔
    n = model.entries.length := by
  have present : model.allLoaded = true ↔
      ∀ position < model.entries.length, (model.module? position).isSome = true := by
    rw [allLoaded, List.all_eq_true]
    constructor
    · intro all position inside
      simpa [module?, inside] using all _ (List.getElem_mem inside)
    · intro all entry member
      obtain ⟨position, inside, rfl⟩ := List.getElem_of_mem member
      simpa [module?, inside] using all position inside
  rw [present]
  constructor
  · intro all
    by_contra short
    have behind : n < model.entries.length := by have := loaded.within; omega
    exact Nat.lt_irrefl n ((loaded.loaded n).mp (all n behind))
  · intro whole position inside
    exact (loaded.loaded position).mpr (whole ▸ inside)

end Model

namespace Attempts

variable {length n n' : Nat} {tried : List Try} {failure : Option Error} {model : Model}

theorem le (attempts : Attempts length n tried failure n') : n ≤ n' := by
  induction attempts with
  | done => exact Nat.le_refl _
  | failed => exact Nat.le_refl _
  | loaded _ _ ih => omega

/-- The attempts of a move lead from one prefix of loaded sources to another. -/
theorem loadedTo (attempts : Attempts length n tried failure n') (whole : model.entries.length = length)
    (loaded : model.LoadedTo n) : (model.afterTries tried).LoadedTo n' := by
  induction attempts generalizing model with
  | done => exact loaded
  | failed => exact loaded
  | @loaded _ _ module _ _ inside _ ih =>
    exact ih (by rw [Model.length_put, whole]) (loaded.put (whole ▸ inside) module)

theorem module?_kept (attempts : Attempts length n tried failure n') {position module : Nat}
    (before : position < n) (found : model.module? position = some module) :
    (model.afterTries tried).module? position = some module := by
  induction attempts generalizing model with
  | done => exact found
  | failed => exact found
  | loaded inside _ ih =>
    refine ih (Nat.lt_succ_of_lt before) ?_
    rw [Model.module?_put_of_ne _ _ (Nat.ne_of_gt before), found]

theorem sources_kept (model : Model) (tried : List Try) :
    (model.afterTries tried).sources = model.sources := by
  induction tried generalizing model with
  | nil => rfl
  | cons attempt rest ih =>
    obtain ⟨position, e | module⟩ := attempt
    · exact ih model
    · exact (ih _).trans (Model.sources_put model position module)

end Attempts

/-! ### One step -/

/-- The sources ahead of a generator are all those from one of the first `n` on, or none. -/
def Aligned (length n : Nat) (ahead : List Nat) : Prop :=
  ahead = [] ∨ ∃ k ≤ n, ahead = List.range' k (length - k)

theorem Aligned.mono {length n n' : Nat} {ahead : List Nat} (aligned : Aligned length n ahead)
    (le : n ≤ n') : Aligned length n' ahead := by
  rcases aligned with none | ⟨k, low, rfl⟩
  · exact .inl none
  · exact .inr ⟨k, Nat.le_trans low le, rfl⟩

theorem Aligned.cons {length n position : Nat} {ahead : List Nat}
    (aligned : Aligned length n (position :: ahead)) :
    position ≤ n ∧ position < length ∧ ahead = List.range' (position + 1) (length - (position + 1)) := by
  rcases aligned with none | ⟨k, low, shape⟩
  · cases none
  · cases left : length - k with
    | zero => simp [left] at shape
    | succ m =>
      rw [left, List.range'_succ] at shape
      obtain ⟨rfl, rfl⟩ := List.cons.inj shape
      exact ⟨low, by omega, by rw [show length - (position + 1) = m by omega]⟩

/-- What a step of a generator does, in a model whose first `n` sources are loaded. -/
def Pull.Orderly (length n : Nat) (model : Model) (pull : Pull) : Prop :=
  ∃ failure n', Attempts length n pull.tried failure n' ∧
    pull.browser.model = model.afterTries pull.tried ∧ (∀ e, failure = some e →
      pull.outcome = .error e) ∧ Aligned length n' pull.generator.cursor.ahead

section
variable {length n : Nat} {selection : Selection}

theorem Pull.Orderly.quiet {pull : Pull} {model : Model} (tried : pull.tried = [])
    (same : pull.browser.model = model) (aligned : Aligned length n pull.generator.cursor.ahead) :
    pull.Orderly length n model := by
  refine ⟨none, n, ?_, ?_, by simp, aligned⟩
  · rw [tried]
    exact .done n
  · rw [tried, same]
    rfl

theorem Pull.Orderly.loaded {pull : Pull} {model : Model} {module : Nat} (inside : n < length)
    (orderly : pull.Orderly length (n + 1) (model.put n module)) :
    Pull.Orderly length n model { pull with tried := [(n, .ok module)] ++ pull.tried } := by
  obtain ⟨failure, n', attempts, after, raised, aligned⟩ := orderly
  exact ⟨failure, n', .loaded inside attempts, after, raised, aligned⟩

theorem behind_aligned {rest : List Slot} {ahead : List Nat} (aligned : Aligned length n ahead) :
    Aligned length n (selection.behind ⟨rest, ahead⟩).cursor.ahead := by
  unfold Selection.behind
  split
  · exact aligned
  · exact .inl rfl

theorem seek_orderly {ahead : List Nat} {onward : Browser → Pull} {model : Model}
    (aligned : Aligned length n ahead)
    (later : ∀ b, b.model = model → (onward b).Orderly length n model) (rest : List Slot)
    (same : b.model = model) :
    (selection.seek supply ahead onward rest b).Orderly length n model := by
  have looking : Looking supply b _ := seekIn_looking selection rest b
  rw [Selection.seek]
  rcases sought : selection.seekIn supply rest b with ⟨_ | _ | _, b'⟩
  · rw [sought] at looking
    exact later b' (looking.1.trans same)
  · rw [sought] at looking
    exact .quiet rfl (looking.1.trans same) aligned
  · rw [sought] at looking
    exact .quiet rfl (looking.1.trans same) (behind_aligned aligned)

theorem enter_orderly {ahead : List Nat} (whole : b.model.entries.length = length)
    (loaded : b.model.LoadedTo n) (aligned : Aligned length n ahead) :
    (selection.enter supply ahead b).Orderly length n b.model := by
  induction ahead generalizing n b with
  | nil => exact .quiet rfl rfl (.inl rfl)
  | cons position ahead ih =>
    obtain ⟨low, inside, shape⟩ := aligned.cons
    have further {m : Nat} (le : position + 1 ≤ m) : Aligned length m ahead :=
      .inr ⟨position + 1, le, shape⟩
    rw [Selection.enter, Selection.triedAt]
    rcases Nat.lt_or_eq_of_le low with before | rfl
    · -- A source that is loaded is entered without an attempt.
      obtain ⟨module, found⟩ := Option.isSome_iff_exists.mp ((loaded.loaded position).mpr before)
      rw [Browse.declarationsAt, perform_bind_ok (moduleAt_loaded found), found]
      rcases items : perform (Browse.itemsOf module Browse.declarationsIndex) supply b with
        ⟨e | declarations, b'⟩
      · have looking : Looking supply b b' := Keeps.after items
        exact .quiet rfl looking.1 (.inl rfl)
      · have looking : Looking supply b b' := Keeps.after items
        refine seek_orderly (further before) (fun b₁ same => ?_) declarations looking.1
        rw [← same]
        exact ih (by rw [same, whole]) (same ▸ loaded) (further before)
    · -- The first source that is not loaded is tried.
      rw [Browse.declarationsAt, perform_bind, moduleAt_unloaded loaded.absent, loaded.absent]
      rcases ran : perform (Browse.load position) supply b with ⟨e | module, b'⟩
      · exact ⟨some e, position, .failed inside e, (load_error ran).1,
          fun _ same => by cases same; rfl, .inl rfl⟩
      · have model := (load_ok ran).model
        have loaded' := loaded.put (whole ▸ inside) module
        dsimp only
        rcases items : perform (Browse.itemsOf module Browse.declarationsIndex) supply b' with
          ⟨e | declarations, b''⟩
        · have looking : Looking supply b' b'' := Keeps.after items
          have stopped : Pull.Orderly length (position + 1) (b.model.put position module)
              ⟨.error e, [], selection.finished, b''⟩ := .quiet rfl (looking.1.trans model) (.inl rfl)
          exact stopped.loaded inside
        · have looking : Looking supply b' b'' := Keeps.after items
          refine Pull.Orderly.loaded inside ?_
          refine seek_orderly (further (Nat.le_refl _)) (fun b₁ same =>
            ?_) declarations (looking.1.trans model)
          rw [← same]
          exact ih (by rw [same, Model.length_put, whole]) (same ▸ loaded') (further (Nat.le_refl _))

theorem next_orderly {g : Generator} (whole : b.model.entries.length = length)
    (loaded : b.model.LoadedTo n) (aligned : Aligned length n g.cursor.ahead) :
    (g.next supply b).Orderly length n b.model := by
  rw [Generator.next]
  split
  · exact .quiet rfl rfl aligned
  · refine seek_orderly aligned (fun b₁ same => ?_) g.cursor.rest rfl
    rw [← same]
    exact enter_orderly (by rw [same, whole]) (same ▸ loaded) aligned

theorem start_aligned (model : Model) :
    Aligned model.entries.length n (Generator.start selection model).cursor.ahead :=
  .inr ⟨0, Nat.zero_le n, List.range_eq_range'⟩

end

/-! ### One move and any number of moves -/

/-- What holds in every session: the first `n` sources are loaded, and the generators are
aligned. -/
structure Session.Orderly (length n : Nat) (s : Session) : Prop where
  whole : s.browser.model.entries.length = length
  loaded : s.browser.model.LoadedTo n
  aligned : ∀ g ∈ s.generators, Aligned length n g.cursor.ahead

structure MoveOrderly (length n : Nat) (s : Session) (event : Event) (s' : Session)
    (failure : Option Error) (n' : Nat) : Prop where
  attempts : Attempts length n event.tried failure n'
  model : s'.browser.model = s.browser.model.afterTries event.tried
  raised : ∀ e, failure = some e → event.outcome = .error e
  orderly : s'.Orderly length n'

namespace Session

variable {length n : Nat}

theorem opening_orderly (sources : List SwanFile) (workspace : Workspace) :
    (opening sources workspace).Orderly sources.length 0 where
  whole := by simp [opening, Model.ofSources]
  loaded := Model.loadedTo_ofSources sources
  aligned := by simp [opening]

theorem length_afterTries (model : Model) (tried : List Try) :
    (model.afterTries tried).entries.length = model.entries.length := by
  simpa [Model.sources] using congrArg List.length (Attempts.sources_kept model tried)

theorem Orderly.pull {s : Session} {pull : Pull} {generators : List Generator}
    (orderly : s.Orderly length n) (stepped : pull.Orderly length n s.browser.model)
    (others : ∀ g ∈ generators, g ∈ s.generators ∨ g = pull.generator) :
    ∃ failure n', MoveOrderly length n s ⟨pull.outcome, pull.tried⟩
      ⟨pull.browser, generators⟩ failure n' := by
  obtain ⟨failure, n', attempts, model, raised, aligned⟩ := stepped
  refine ⟨failure, n', attempts, model, raised, ?_, ?_, ?_⟩
  · rw [model, length_afterTries, orderly.whole]
  · rw [model]
    exact attempts.loadedTo orderly.whole orderly.loaded
  · intro g member
    rcases others g member with old | rfl
    · exact (orderly.aligned g old).mono attempts.le
    · exact aligned

theorem step_orderly (supply : Supply) {s : Session} (orderly : s.Orderly length n) (move : Move) :
    ∃ failure n', MoveOrderly length n s (s.step supply move).1 (s.step supply move).2 failure n' := by
  cases move with
  | query selection =>
    refine ⟨none, n, .done n, rfl, by simp, orderly.whole, orderly.loaded, fun g member => ?_⟩
    rcases List.mem_append.mp member with old | new
    · exact orderly.aligned g old
    · rw [List.mem_singleton.mp new, ← orderly.whole]
      exact start_aligned s.browser.model
  | next i =>
    rw [step]
    split
    · rename_i g found
      have member := List.mem_of_getElem? found
      refine orderly.pull (next_orderly orderly.whole orderly.loaded (orderly.aligned g member))
        fun other inside => ?_
      exact (List.mem_or_eq_of_mem_set inside).imp_right id
    · exact ⟨none, n, .done n, rfl, by simp, orderly⟩
  | find selection =>
    have aligned : Aligned length n (Generator.start selection s.browser.model).cursor.ahead := by
      rw [← orderly.whole]
      exact start_aligned s.browser.model
    exact orderly.pull (next_orderly orderly.whole orderly.loaded aligned) fun _ => .inl

end Session

def Event.loaded (event : Event) : List Nat :=
  event.tried.filterMap fun (position, result) =>
    match result with
    | .ok _ => some position
    | .error _ => none

namespace Attempts

variable {length n n' : Nat} {tried : List Try} {failure : Option Error}

theorem loaded_eq (attempts : Attempts length n tried failure n')
    (outcome : Except Error (Option Slot)) :
    (Event.loaded ⟨outcome, tried⟩) = List.range' n (n' - n) := by
  induction attempts with
  | done => simp [Event.loaded]
  | failed => simp [Event.loaded]
  | @loaded n n' module tried failure _ rest ih =>
    have le := rest.le
    rw [show n' - n = (n' - (n + 1)) + 1 by omega, List.range'_succ, ← ih]
    rfl

/-- A source that fails is the last one that is tried, and the first one that is not loaded. -/
theorem failed_last (attempts : Attempts length n tried failure n') {position : Nat} {e : Error}
    (failed : (position, .error e) ∈ tried) :
    failure = some e ∧ position = n' ∧ n' < length ∧
      ∃ earlier, tried = earlier ++ [(position, .error e)] ∧
        ∀ attempt ∈ earlier, attempt.2.isOk = true := by
  induction attempts with
  | done => cases failed
  | failed inside e' =>
    cases List.mem_singleton.mp failed
    exact ⟨rfl, rfl, inside, [], rfl, by simp⟩
  | @loaded n _ module _ _ _ rest ih =>
    rcases List.mem_cons.mp failed with same | later
    · cases same
    · obtain ⟨raised, last, inside, earlier, rfl, succeeded⟩ := ih later
      refine ⟨raised, last, inside, (n, .ok module) :: earlier, rfl, ?_⟩
      intro attempt member
      rcases List.mem_cons.mp member with rfl | member
      · rfl
      · exact succeeded attempt member

end Attempts

namespace Session

variable {length n : Nat}

theorem run_append (s : Session) (first second : List Move) :
    s.run supply (first ++ second) =
      ((s.run supply first).1 ++ ((s.run supply first).2.run supply second).1,
        ((s.run supply first).2.run supply second).2) := by
  induction first generalizing s with
  | nil => rfl
  | cons move rest ih =>
    simp only [List.cons_append, run, ih]

/-- Any run of moves loads sources in the order of the list. -/
theorem run_orderly (supply : Supply) {s : Session} (orderly : s.Orderly length n) (moves : List Move) :
    ∃ n', n ≤ n' ∧ (s.run supply moves).2.Orderly length n' ∧
      (s.run supply moves).1.flatMap Event.loaded = List.range' n (n' - n) := by
  induction moves generalizing s n with
  | nil => exact ⟨n, Nat.le_refl n, orderly, by simp [run]⟩
  | cons move rest ih =>
    obtain ⟨failure, n₁, moved⟩ := step_orderly supply orderly move
    obtain ⟨n₂, le, orderly', loaded⟩ := ih moved.orderly
    have first := moved.attempts.loaded_eq (s.step supply move).1.outcome
    have before := moved.attempts.le
    refine ⟨n₂, Nat.le_trans before le, orderly', ?_⟩
    rw [run, List.flatMap_cons, loaded, first]
    rw [show n₂ - n =
      (n₁ - n) + (n₂ - n₁) by omega, ← List.range'_append_1, show n + (n₁ - n) = n₁ by omega]

theorem run_module? {s : Session} (orderly : s.Orderly length n) (moves : List Move)
    {position module : Nat} (found : s.browser.model.module? position = some module) :
    (s.run supply moves).2.browser.model.module? position = some module := by
  induction moves generalizing s n with
  | nil => exact found
  | cons move rest ih =>
    obtain ⟨failure, n₁, moved⟩ := step_orderly supply orderly move
    have before : position < n := (orderly.loaded.loaded position).mp (by rw [found]; rfl)
    have kept := moved.attempts.module?_kept before found
    rw [← moved.model] at kept
    exact ih moved.orderly kept

end Session

end SwanModel
