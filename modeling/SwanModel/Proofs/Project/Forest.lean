import SwanModel.Proofs.Project.Returns

/-!
# Libraries form a forest

Libraries are opened as new projects each time they are found, and numbers are never used twice. So
a project is kept as a library of at most one other, and once.
-/

namespace SwanModel

open Relation

variable {app app' app'' : Application} {reader : Reader} {id levels : Nat} {asset : ProjectAsset}

namespace Application

def librariesAt (app : Application) (id : Nat) : Option (List Nat) :=
  app.projects[id]?.bind (·.libraries)

def Owns (app : Application) (id library : Nat) : Prop :=
  ∃ ids, app.librariesAt id = some ids ∧ library ∈ ids

/-- Each project is a library of at most one other, which was opened before it, and only once. -/
structure IsForest (app : Application) : Prop where
  distinct : ∀ {id ids}, app.librariesAt id = some ids → ids.Nodup
  later : ∀ {id library}, app.Owns id library → id < library
  known : ∀ {id library}, app.Owns id library → library < app.projects.size
  single : ∀ {id other library}, app.Owns id library → app.Owns other library → id = other

theorem librariesAt_modify (f : Project → Project) (other : Nat) :
    librariesAt { app with projects := app.projects.modify id f } other =
      if id = other then app.projects[other]?.bind fun p =>
        (f p).libraries else app.librariesAt other := by
  simp only [librariesAt, Array.getElem?_modify]
  split
  · rw [Option.bind_map]
    rfl
  · rfl

theorem librariesAt_modify_same {f : Project → Project} (same : ∀ p, (f p).libraries = p.libraries)
    (other : Nat) : librariesAt { app with projects := app.projects.modify id f } other =
      app.librariesAt other := by
  rw [librariesAt_modify]
  split
  · simp only [same, librariesAt]
  · rfl

theorem librariesAt_push (asset : ProjectAsset) (other : Nat) :
    librariesAt { app with projects := app.projects.push { asset := asset } } other =
      app.librariesAt other := by
  simp only [librariesAt, Array.getElem?_push]
  split
  · next last =>
    subst last
    simp
  · rfl

end Application

/-! ### What is kept of libraries -/

/-- Projects are at most added, and what is kept of libraries stays. -/
def Steady (_ : Reader) (app app' : Application) : Prop :=
  app.projects.size ≤ app'.projects.size ∧ ∀ id, app'.librariesAt id = app.librariesAt id

instance : Lasting Steady where
  refl _ _ := ⟨Nat.le_refl _, fun _ => rfl⟩
  trans first second :=
    ⟨Nat.le_trans first.1 second.1, fun id => (second.2 id).trans (first.2 id)⟩

theorem steady_modify {f : Project → Project} (same : ∀ p, (f p).libraries = p.libraries) (id : Nat) :
    Keeps Steady (App.modifyProject id f) where
  keeps reader app := by
    have size : app.projects.size ≤ (app.projects.modify id f).size := by simp
    exact ⟨size, Application.librariesAt_modify_same same⟩

instance (asset : ProjectAsset) : Keeps Steady (App.add asset) where
  keeps reader app := by
    have size : app.projects.size ≤ (app.projects.push { asset := asset }).size := by simp
    exact ⟨size, Application.librariesAt_push asset⟩

instance (id : Nat) : Keeps Steady (App.data id) := by
  refine .bind inferInstance fun p => ?_
  split
  · infer_instance
  · refine .bind inferInstance fun files => .bind inferInstance fun content =>
      .bind inferInstance fun value => ?_
    split
    · infer_instance
    · exact .bind (steady_modify (f := fun p => { p with data := some _ }) (fun _ => rfl) id)
        inferInstance

/-- Libraries that are kept stay, and they form a forest. -/
structure Branched (app app' : Application) : Prop where
  size : app.projects.size ≤ app'.projects.size
  kept : ∀ {id ids}, app.librariesAt id = some ids → app'.librariesAt id = some ids
  forest : app'.IsForest

def Branching (_ : Reader) (app app' : Application) : Prop := app.IsForest → Branched app app'

theorem Branched.refl (forest : app.IsForest) : Branched app app := ⟨Nat.le_refl _, id, forest⟩

theorem Branched.trans (first : Branched app app') (second : Branched app' app'') : Branched app app'' :=
  ⟨Nat.le_trans first.size second.size, fun found => second.kept (first.kept found), second.forest⟩

theorem Branched.owns {library : Nat} (branched : Branched app app') (owns : app.Owns id library) :
    app'.Owns id library := by
  obtain ⟨ids, found, member⟩ := owns
  exact ⟨ids, branched.kept found, member⟩

instance : Lasting Branching where
  refl _ _ := Branched.refl
  trans first second forest := (first forest).trans (second (first forest).forest)

theorem Steady.branched (steady : Steady reader app app') (forest : app.IsForest) :
    Branched app app' := by
  obtain ⟨size, same⟩ := steady
  have owns {id library : Nat} (owned : app'.Owns id library) : app.Owns id library := by
    obtain ⟨ids, found, member⟩ := owned
    exact ⟨ids, same id ▸ found, member⟩
  refine ⟨size, fun found => (same _).trans found, ⟨?_, ?_, ?_, ?_⟩⟩
  · intro id ids found
    exact forest.distinct (same id ▸ found)
  · intro id library owned
    exact forest.later (owns owned)
  · intro id library owned
    exact Nat.lt_of_lt_of_le (forest.known (owns owned)) size
  · intro id other library owned owned'
    exact forest.single (owns owned) (owns owned')

theorem branching_of_steady {x : App α} (steady : Keeps Steady x) : Keeps Branching x :=
  ⟨fun reader app => (steady.keeps reader app).branched⟩

theorem Branched.of_fresh (forest : app.IsForest) {ids : List Nat} {f : Project → Project}
    (there : id < app.projects.size) (new : app.librariesAt id = none) (distinct : ids.Nodup)
    (fresh : ∀ library ∈ ids, id < library ∧ library < app.projects.size ∧
      ∀ other, ¬ app.Owns other library)
    (kept : ∀ p, (f p).libraries = some ids) :
    Branched app { app with projects := app.projects.modify id f } ∧
      Application.librariesAt { app with projects := app.projects.modify id f } id = some ids := by
  have here : Application.librariesAt { app with projects := app.projects.modify id f } id =
      some ids := by
    simp [Application.librariesAt_modify, kept, Array.getElem?_eq_getElem there]
  have elsewhere {other : Nat} (differs : id ≠ other) :
      Application.librariesAt { app with projects := app.projects.modify id f } other =
        app.librariesAt other := by
    rw [Application.librariesAt_modify, if_neg differs]
  have owned {other library : Nat}
      (owns : Application.Owns { app with projects := app.projects.modify id f } other library) :
      (other = id ∧ library ∈ ids) ∨ app.Owns other library := by
    obtain ⟨found, listed, member⟩ := owns
    by_cases same : id = other
    · subst same
      obtain rfl : ids = found := Option.some.inj (here.symm.trans listed)
      exact .inl ⟨rfl, member⟩
    · exact .inr ⟨found, elsewhere same ▸ listed, member⟩
  refine ⟨⟨by simp, ?_, ⟨?_, ?_, ?_, ?_⟩⟩, here⟩
  · intro other found listed
    by_cases same : id = other
    · subst same
      cases new.symm.trans listed
    · exact (elsewhere same).trans listed
  · intro other found listed
    by_cases same : id = other
    · subst same
      obtain rfl : ids = found := Option.some.inj (here.symm.trans listed)
      exact distinct
    · exact forest.distinct (elsewhere same ▸ listed)
  · intro other library owns
    rcases owned owns with ⟨rfl, member⟩ | owns
    · exact (fresh library member).1
    · exact forest.later owns
  · intro other library owns
    rw [Array.size_modify]
    rcases owned owns with ⟨rfl, member⟩ | owns
    · exact (fresh library member).2.1
    · exact forest.known owns
  · intro first second library owns owns'
    rcases owned owns with ⟨rfl, member⟩ | before <;> rcases owned owns' with ⟨rfl, member'⟩ | before'
    · rfl
    · exact absurd before' ((fresh library member).2.2 second)
    · exact absurd before ((fresh library member').2.2 first)
    · exact forest.single before before'

namespace App

theorem addAll_fresh {paths : List FilePath} {ids : List Nat}
    (ran : perform (paths.mapM fun path => add (.ofPath path)) reader app = (.ok ids, app')) :
    ids.Nodup ∧ ∀ library ∈ ids, app.projects.size ≤ library ∧ library < app'.projects.size := by
  induction paths generalizing app ids with
  | nil =>
    cases ran
    exact ⟨List.nodup_nil, nofun⟩
  | cons path rest ih =>
    rw [List.mapM_cons] at ran
    obtain ⟨first, app₁, added, ran⟩ := bind_ok ran
    obtain ⟨others, app₂, ran₂, ran⟩ := bind_ok ran
    cases ran
    cases added
    obtain ⟨distinct, bounds⟩ := ih ran₂
    have steady : Steady reader _ app' := Keeps.after ran₂
    have above := steady.1
    simp only [Array.size_push] at above bounds
    refine ⟨List.nodup_cons.mpr ⟨fun member => ?_, distinct⟩,
      List.forall_mem_cons.mpr ⟨?_, fun library member => ?_⟩⟩
    · have bound := bounds _ member
      omega
    · omega
    · have bound := bounds library member
      omega

/-- Asking for libraries grows the forest, and the libraries are branches of the project. -/
theorem libraries_branched (forest : app.IsForest) (id : Nat) (reader : Reader) :
    Branched app (perform (libraries id) reader app).2 ∧
      ∀ ids, (perform (libraries id) reader app).1 = .ok ids → ids.Nodup ∧
        ∀ library ∈ ids, (perform (libraries id) reader app).2.Owns id library := by
  rcases there : app.projects[id]? with - | p
  · simp only [libraries, perform_bind_error (perform_project_none there)]
    exact ⟨.refl forest, by simp⟩
  simp only [libraries, perform_bind_ok (perform_project there)]
  rcases before : p.libraries with - | ids
  · rcases p.asset.directory with - | directory
    · refine ⟨.refl forest, fun ids found => ?_⟩
      cases found
      exact ⟨List.nodup_nil, List.forall_mem_nil _⟩
    · have inside : id < app.projects.size := (Array.getElem?_eq_some_iff.mp there).1
      have new : app.librariesAt id = none := by simp [Application.librariesAt, there, before]
      rcases read : perform (data id) reader app with ⟨e | value, app₁⟩
      all_goals have steady : Steady reader app app₁ := Keeps.after read
      · simp only [perform_bind_error read]
        exact ⟨steady.branched forest, by simp⟩
      simp only [perform_bind_ok read, perform_bind_ok perform_files]
      rw [← Project.libraryPaths]
      rcases listed : Project.libraryPaths app₁.files directory value with e | paths
      · rw [perform_bind_error (perform_ofExcept (.error e))]
        exact ⟨steady.branched forest, by simp⟩
      rw [perform_bind_ok (perform_ofExcept (.ok paths))]
      rcases added : perform (paths.mapM fun path => add (.ofPath path)) reader app₁ with ⟨e | ids, app₂⟩
      all_goals have steady₂ : Steady reader app app₂ := Lasting.trans steady (Keeps.after added)
      · rw [perform_bind_error added]
        exact ⟨steady₂.branched forest, by simp⟩
      rw [perform_bind_ok added]
      obtain ⟨distinct, bounds⟩ := addAll_fresh added
      have grown := steady₂.branched forest
      have fresh : ∀ library ∈ ids, id < library ∧ library < app₂.projects.size ∧
          ∀ other, ¬ app₂.Owns other library := by
        intro library member
        obtain ⟨above, below⟩ := bounds library member
        have first := steady.1
        refine ⟨by omega, below, ?_⟩
        rintro other ⟨found, kept, inList⟩
        -- a library that was kept before has a number from before
        have old := forest.known ⟨found, steady₂.2 other ▸ kept, inList⟩
        omega
      have placed := Branched.of_fresh grown.forest (Nat.lt_of_lt_of_le inside grown.size)
        ((steady₂.2 id).trans new) distinct fresh
        (f := fun p => { p with libraries := some ids }) fun _ => rfl
      refine ⟨grown.trans placed.1, fun found same => ?_⟩
      cases same
      exact ⟨distinct, fun library member => ⟨ids, placed.2, member⟩⟩
  · refine ⟨.refl forest, fun found same => ?_⟩
    cases same
    have kept : app.librariesAt id = some ids := by simp [Application.librariesAt, there, before]
    exact ⟨forest.distinct kept, fun library member => ⟨ids, kept, member⟩⟩

instance (id : Nat) : Keeps Branching (libraries id) :=
  ⟨fun reader _ forest => (libraries_branched forest id reader).1⟩

theorem branching_elsewhere (projects : app'.projects = app.projects) : Branching reader app app' := by
  have steady : Steady reader app app' :=
    ⟨by simp [projects], fun id => by rw [Application.librariesAt, projects, Application.librariesAt]⟩
  exact steady.branched

instance : Enduring Branching where
  elsewhere _ _ projects := branching_elsewhere projects
  add _ := branching_of_steady inferInstance
  data _ := branching_of_steady inferInstance
  libraries := inferInstance
  browse := browse_keeps (fun _ _ projects => branching_elsewhere projects) fun id model =>
    branching_of_steady (steady_modify (f := fun p => { p with model := some model }) (fun _ => rfl) id)

end App

/-- Behind steps that only read, the libraries that are known form a forest. -/
theorem after_isForest {files : Files} {history : List ProjectStep}
    (reads : ∀ step ∈ history, step.onlyReads = true)
    (behind : app = Application.after reader { files := files, levels := levels } history) :
    app.IsForest := by
  have branching : Branching reader { files := files, levels := levels } app :=
    behind ▸ after_keeps reads
  exact (branching ⟨nofun, nofun, nofun, nofun⟩).forest

end SwanModel
