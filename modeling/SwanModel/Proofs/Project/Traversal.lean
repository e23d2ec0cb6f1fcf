import SwanModel.Project.Session
import SwanModel.Proofs.Project.Acyclic
import SwanModel.Proofs.Project.Current

/-!
# All libraries of a project

All libraries are found exactly where every project that is reached can be read and no chain of
libraries has as many levels as are followed.
-/

namespace SwanModel

open Relation

variable {known : List Nat}

variable {app app' : Application} {reader : Reader} {id levels : Nat} {asset library : ProjectAsset}

def Application.Has (app : Application) (ids : List Nat) (asset : ProjectAsset) : Prop :=
  ∃ id ∈ ids, app.assetAt id = some asset

/-- Some projects have short chains of libraries, and their libraries are among them. -/
structure Application.Closed (app : Application) (levels : Nat) (ids : List Nat) : Prop where
  bounded : ∀ id ∈ ids, ∃ asset, app.assetAt id = some asset ∧ Bounded app.files levels asset
  libraries : ∀ {asset library}, app.Has ids asset → HasLibrary app.files asset library →
    app.Has ids library

theorem Application.Has.later {ids : List Nat} (has : app.Has ids asset) (within : app.IsWithin app') :
    app'.Has ids asset := by
  obtain ⟨id, member, known⟩ := has
  exact ⟨id, member, within id asset known⟩

theorem Application.Has.mono {ids all : List Nat} (has : app.Has ids asset) (subset : ids ⊆ all) :
    app.Has all asset := by
  obtain ⟨id, member, known⟩ := has
  exact ⟨id, subset member, known⟩

namespace Application.Closed

variable {ids others : List Nat}

theorem nil : app.Closed levels [] := ⟨nofun, fun ⟨_, member, _⟩ => nomatch member⟩

theorem later (closed : app.Closed levels ids) (opened : Opened app app') : app'.Closed levels ids where
  bounded id member := by
    obtain ⟨asset, known, bounded⟩ := closed.bounded id member
    exact ⟨asset, opened.assets id asset known, opened.files ▸ bounded⟩
  libraries {asset library} has edge := by
    obtain ⟨id, member, known'⟩ := has
    obtain ⟨before, known, -⟩ := closed.bounded id member
    obtain rfl : before = asset := Option.some.inj ((opened.assets id before known).symm.trans known')
    rw [opened.files] at edge
    exact (closed.libraries ⟨id, member, known⟩ edge).later opened.assets

theorem succ (closed : app.Closed levels ids) : app.Closed (levels + 1) ids where
  bounded id member := by
    obtain ⟨asset, known, bounded⟩ := closed.bounded id member
    exact ⟨asset, known, bounded.succ⟩
  libraries := closed.libraries

theorem reached (closed : app.Closed levels ids)
    (direct : ∀ library, HasLibrary app.files asset library → app.Has ids library)
    (path : TransGen (HasLibrary app.files) asset library) : app.Has ids library := by
  induction path with
  | single edge => exact direct _ edge
  | tail _ edge ih => exact closed.libraries ih edge

end Application.Closed

namespace App

theorem mem_addNew {new : List Nat} {id : Nat} : id ∈ addNew known new ↔ id ∈ known ∨ id ∈ new := by
  induction new generalizing known with
  | nil => simp [addNew]
  | cons first rest ih =>
    have step : addNew known (first :: rest) =
        addNew (if known.contains first then known else known ++ [first]) rest := rfl
    rw [step, ih]
    split
    · next there => grind
    · grind

def Gathers (reader : Reader) (levels : Nat) : Prop :=
  ∀ {app : Application} {id : Nat} {asset : ProjectAsset}, app.IsCurrent → app.assetAt id = some asset →
    SucceedsIff (allLibrariesUpTo levels id) reader app (Bounded app.files levels asset) fun ids app' =>
      Opened app app' ∧ app'.Closed levels ids ∧
        ∀ library, HasLibrary app.files asset library → app'.Has ids library

def gather (levels : Nat) (known : List Nat) (library : Nat) : App (List Nat) := do
  if known.contains library then return known
  return addNew (known ++ [library]) (← allLibrariesUpTo levels library)

theorem allLibrariesUpTo_succ (levels id : Nat) :
    allLibrariesUpTo (levels + 1) id = libraries id >>= fun found =>
      found.foldlM (gather levels) [] := rfl

theorem gather_spec (each : Gathers reader levels) (current : app.IsCurrent)
    (there : app.assetAt id = some asset) (closed : app.Closed levels known) :
    SucceedsIff (gather levels known id) reader app (Bounded app.files levels asset) fun all app' =>
      Opened app app' ∧ app'.Closed levels all ∧ app'.Has all asset ∧ known ⊆ all := by
  unfold gather
  split
  · next inside =>
    -- what is known already is bounded, so skipping it hides no failure
    have member : id ∈ known := List.contains_iff_mem.mp inside
    obtain ⟨before, there', bounded⟩ := closed.bounded id member
    obtain rfl : before = asset := Option.some.inj (there'.symm.trans there)
    exact ⟨bounded, .refl current, closed, ⟨id, member, there⟩, List.Subset.refl known⟩
  · refine (each current there).holding.map fun ids app' reached => ?_
    obtain ⟨bounded, opened, closed', direct⟩ := reached
    have here : app'.assetAt id = some asset := opened.assets id asset there
    have before := closed.later opened
    have subset : known ⊆ addNew (known ++ [id]) ids :=
      fun _ member => mem_addNew.mpr (.inl (by simp [member]))
    have subset' : ids ⊆ addNew (known ++ [id]) ids := fun _ member => mem_addNew.mpr (.inr member)
    have cases {other : Nat} (member : other ∈ addNew (known ++ [id]) ids) :
        other ∈ known ∨ other = id ∨ other ∈ ids := by
      simpa [or_assoc] using mem_addNew.mp member
    refine ⟨opened, ⟨fun other member => ?_, ?_⟩, ⟨id, mem_addNew.mpr (.inl (by simp)), here⟩, subset⟩
    · rcases cases member with old | rfl | new
      · exact before.bounded other old
      · exact ⟨asset, here, opened.files ▸ bounded⟩
      · exact closed'.bounded other new
    · rintro asset' library ⟨other, member, known'⟩ edge
      rcases cases member with old | rfl | new
      · exact (before.libraries ⟨other, old, known'⟩ edge).mono subset
      · obtain rfl : asset = asset' := Option.some.inj (here.symm.trans known')
        exact (direct library (opened.files ▸ edge)).mono subset'
      · exact (closed'.libraries ⟨other, new, known'⟩ edge).mono subset'

theorem gatherAll_spec (each : Gathers reader levels) {ids : List Nat} {found : List ProjectAsset}
    (current : app.IsCurrent) (listed : ids.map app.assetAt = found.map some)
    (closed : app.Closed levels known) :
    SucceedsIff (ids.foldlM (gather levels) known) reader app (∀ library ∈ found,
      Bounded app.files levels library) fun all app' => Opened app app' ∧ app'.Closed levels all ∧
        (∀ library ∈ found, app'.Has all library) ∧ known ⊆ all := by
  induction ids generalizing app known found with
  | nil =>
    obtain rfl : found = [] := List.map_eq_nil_iff.mp listed.symm
    exact ⟨nofun, .refl current, closed, nofun, List.Subset.refl known⟩
  | cons id rest ih =>
    obtain ⟨first, others, rfl, there, listed⟩ := List.map_eq_cons_iff.mp listed.symm
    rw [List.foldlM_cons]
    refine SucceedsIff.congr (.bind (gather_spec each current there.symm closed)
      fun all app' reached => ?_) List.forall_mem_cons.symm
    obtain ⟨opened, closed', has, subset⟩ := reached
    rw [← opened.files]
    refine (ih opened.current (opened.assets.assets_eq listed.symm) closed').weaken
      fun all' app'' reached' => ?_
    obtain ⟨opened', closed'', others_there, subset'⟩ := reached'
    refine ⟨opened.trans opened', closed'', ?_, List.Subset.trans subset subset'⟩
    exact List.forall_mem_cons.mpr ⟨(has.later opened'.assets).mono subset', others_there⟩

/-- All libraries are found exactly where chains of libraries are short. -/
theorem allLibrariesUpTo_spec (reader : Reader) (levels : Nat) : Gathers reader levels := by
  induction levels with
  | zero =>
    intro app id asset current there
    have never : ¬ Bounded app.files 0 asset := fun bounded => bounded.short asset (.stay asset)
    exact never
  | succ levels ih =>
    intro app id asset current there
    obtain ⟨result, app₁, ran, opened, lists⟩ := libraries_run current there
    rw [allLibrariesUpTo_succ]
    rcases read : asset.libraries app.files with e | found
    · rw [read] at lists
      cases lists
      refine .failure (perform_bind_error ran _) fun bounded => ?_
      obtain ⟨found, read'⟩ := bounded.readable asset .refl
      cases read.symm.trans read'
    · rw [read] at lists
      cases lists with
      | ok listed =>
        refine .after ran (.congr (.weaken (gatherAll_spec ih opened.current listed .nil) ?_) ?_)
        · rintro all app' ⟨opened', closed, has, -⟩
          refine ⟨opened.trans opened', closed.succ, ?_⟩
          rintro library ⟨found', read', member⟩
          obtain rfl : found = found' := Except.ok.inj (read.symm.trans read')
          exact has library member
        · rw [opened.files, bounded_succ_iff read]

/-! ### Why libraries are not found -/

section
variable {R : Reader → Application → Application → Prop} [Lasting R]

instance (levels known library) [Keeps R (allLibrariesUpTo levels library)] :
    Keeps R (gather levels known library) := by
  unfold gather
  split <;> infer_instance

instance (levels id : Nat) [∀ id, Keeps R (libraries id)] : Keeps R (allLibrariesUpTo levels id) := by
  induction levels generalizing id with
  | zero => exact inferInstanceAs (Keeps R (throw .tooDeep : App (List Nat)))
  | succ levels ih =>
    rw [allLibrariesUpTo_succ]
    infer_instance

end

/-- Where every project can be read, only the number of levels stops the search. -/
def StopsAtDepth (reader : Reader) (levels : Nat) : Prop :=
  ∀ {app app' : Application} {id : Nat} {asset : ProjectAsset} {e : Error}, app.IsCurrent →
    app.assetAt id = some asset →
    (∀ library, ReflTransGen (HasLibrary app.files) asset library → library.IsReadable app.files) →
    perform (allLibrariesUpTo levels id) reader app = (.error e, app') → e = .tooDeep

theorem gather_error (each : StopsAtDepth reader levels) {e : Error} (current : app.IsCurrent)
    (there : app.assetAt id = some asset)
    (readable : ∀ library, ReflTransGen (HasLibrary app.files) asset library →
      library.IsReadable app.files)
    (ran : perform (gather levels known id) reader app = (.error e, app')) : e = .tooDeep := by
  unfold gather at ran
  split at ran
  · cases ran
  · rcases sought : perform (allLibrariesUpTo levels id) reader app with ⟨e' | ids, app₁⟩
    · rw [perform_bind_error sought] at ran
      cases ran
      exact each current there readable sought
    · rw [perform_bind_ok sought] at ran
      cases ran

theorem gatherAll_error (each : StopsAtDepth reader levels) {ids : List Nat}
    {found : List ProjectAsset} {e : Error} (current : app.IsCurrent)
    (listed : ids.map app.assetAt = found.map some)
    (readable : ∀ first ∈ found, ∀ library, ReflTransGen (HasLibrary app.files) first library →
      library.IsReadable app.files)
    (ran : perform (ids.foldlM (gather levels) known) reader app = (.error e, app')) :
    e = .tooDeep := by
  induction ids generalizing app known found with
  | nil => cases ran
  | cons id rest ih =>
    obtain ⟨first, others, rfl, there, listed⟩ := List.map_eq_cons_iff.mp listed.symm
    obtain ⟨here, later⟩ := List.forall_mem_cons.mp readable
    rw [List.foldlM_cons] at ran
    rcases stepped : perform (gather levels known id) reader app with ⟨e' | all, app₁⟩
    · rw [perform_bind_error stepped] at ran
      cases ran
      exact gather_error each current there.symm here stepped
    · rw [perform_bind_ok stepped] at ran
      have opening : Opening reader app app₁ := Keeps.after stepped
      have opened := opening current
      rw [← opened.files] at later
      exact ih opened.current (opened.assets.assets_eq listed.symm) later ran

theorem allLibrariesUpTo_error (reader : Reader) (levels : Nat) : StopsAtDepth reader levels := by
  induction levels with
  | zero =>
    intro app app' id asset e _ _ _ ran
    cases ran
    rfl
  | succ levels ih =>
    intro app app' id asset e current there readable ran
    obtain ⟨result, app₁, ran', opened, lists⟩ := libraries_run current there
    obtain ⟨found, read⟩ := readable asset .refl
    rw [read] at lists
    cases lists with
    | ok listed =>
      rw [allLibrariesUpTo_succ, perform_bind_ok ran'] at ran
      refine gatherAll_error ih opened.current listed (fun first member library path => ?_) ran
      rw [opened.files] at path ⊢
      exact readable library (.head ⟨found, read, member⟩ path)

end App

end SwanModel
