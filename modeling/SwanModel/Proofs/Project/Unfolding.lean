import SwanModel.Proofs.Project.Forest

/-!
# All libraries are the unfolded dependencies

The search for all libraries knows projects by their numbers, and those are new on every path. So it
gives the libraries that the dependencies unfold to.
-/

namespace SwanModel

open Relation

variable {app app' : Application} {reader : Reader} {id levels : Nat} {files : Files}
  {asset library : ProjectAsset}

namespace ProjectAsset

/-- The libraries that a project leads to, down to a number of levels: each is followed by all of
its own. -/
def unfolded (files : Files) : Nat → ProjectAsset → List ProjectAsset
  | 0, _ => []
  | levels + 1, asset =>
    match asset.libraries files with
    | .ok found => found.flatMap fun library => library :: unfolded files levels library
    | .error _ => []

theorem unfolded_succ {found : List ProjectAsset} (read : asset.libraries files = .ok found) :
    asset.unfolded files (levels + 1) = found.flatMap fun library =>
      library :: library.unfolded files levels := by
  simp only [unfolded, read]

/-- Exactly the projects that are reached are there, each at least once. -/
theorem mem_unfolded_iff (bounded : Bounded files levels asset) :
    library ∈ asset.unfolded files levels ↔ TransGen (HasLibrary files) asset library := by
  induction levels generalizing asset with
  | zero => exact absurd (.stay asset) (bounded.short asset)
  | succ levels ih =>
    obtain ⟨found, read⟩ := bounded.readable asset .refl
    have each := (bounded_succ_iff read).mp bounded
    rw [unfolded_succ read, List.mem_flatMap, TransGen.head'_iff]
    constructor
    · rintro ⟨first, member, inside⟩
      refine ⟨first, ⟨found, read, member⟩, ?_⟩
      rcases List.mem_cons.mp inside with rfl | inside
      · exact .refl
      · exact ((ih (each first member)).mp inside).to_reflTransGen
    · rintro ⟨first, ⟨found', read', member⟩, path⟩
      obtain rfl : found = found' := Except.ok.inj (read.symm.trans read')
      refine ⟨first, member, List.mem_cons.mpr ?_⟩
      rcases reflTransGen_iff_eq_or_transGen.mp path with same | path
      · exact .inl same
      · exact .inr ((ih (each first member)).mpr path)

end ProjectAsset

/-! ### Branches of a forest -/

namespace Application.IsForest

variable {parent first second other : Nat}

theorem lt_of_below (forest : app.IsForest) (below : TransGen app.Owns first second) :
    first < second := by
  induction below with
  | single owns => exact forest.later owns
  | tail _ owns ih => exact Nat.lt_trans ih (forest.later owns)

theorem le_of_under (forest : app.IsForest) (under : ReflTransGen app.Owns first second) :
    first ≤ second := by
  rcases reflTransGen_iff_eq_or_transGen.mp under with rfl | below
  · exact Nat.le_refl _
  · exact Nat.le_of_lt (forest.lt_of_below below)

theorem eq_of_under (forest : app.IsForest) (owns : app.Owns parent first)
    (owns' : app.Owns parent second) (under : ReflTransGen app.Owns first second) : first = second := by
  rcases under.cases_tail with same | ⟨before, under, last⟩
  · exact same.symm
  · obtain rfl := forest.single owns' last
    have up := forest.le_of_under under
    have down := forest.later owns
    omega

theorem apart (forest : app.IsForest) (owns : app.Owns parent first) (owns' : app.Owns parent second)
    (under : ReflTransGen app.Owns first other) (under' : ReflTransGen app.Owns second other) :
    first = second := by
  have unique : Relator.RightUnique (Function.swap app.Owns) := fun _ _ _ up up' => forest.single up up'
  have comparable := ReflTransGen.total_of_right_unique unique under.swap under'.swap
  rcases comparable with up | up
  · exact (forest.eq_of_under owns' owns (reflTransGen_swap.mp up)).symm
  · exact forest.eq_of_under owns owns' (reflTransGen_swap.mp up)

end Application.IsForest

theorem Branched.under {first second : Nat} (branched : Branched app app')
    (under : ReflTransGen app.Owns first second) : ReflTransGen app'.Owns first second := by
  exact under.lift id fun _ _ owns => branched.owns owns

/-! ### What the search gives -/

/-- Numbers that were gathered below some roots, and the files they stand for. -/
structure Application.Gathered (app : Application) (roots : List Nat) (expected : List ProjectAsset)
    (ids : List Nat) : Prop where
  assets : ids.map app.assetAt = expected.map some
  distinct : ids.Nodup
  below : ∀ id ∈ ids, ∃ root ∈ roots, ReflTransGen app.Owns root id

namespace App

theorem addNew_of_nodup {known new : List Nat} (distinct : (known ++ new).Nodup) :
    addNew known new = known ++ new := by
  induction new generalizing known with
  | nil => simp [addNew]
  | cons first rest ih =>
    have outside : first ∉ known := by
      intro member
      exact (List.nodup_append.mp distinct).2.2 first member first List.mem_cons_self rfl
    have step : addNew known (first :: rest) = addNew (known ++ [first]) rest := by
      simp [addNew, outside]
    rw [step, ih (by simpa using distinct), List.append_assoc, List.singleton_append]

/-- All libraries of a project have to be those that its dependencies unfold to, with new
numbers. -/
def Unfolds (reader : Reader) (levels : Nat) : Prop :=
  ∀ {app app' : Application} {id : Nat} {asset : ProjectAsset} {ids : List Nat}, app.IsCurrent →
    app.IsForest → app.assetAt id = some asset →
      perform (allLibrariesUpTo levels id) reader app = (.ok ids, app') →
    ids.map app'.assetAt = (asset.unfolded app.files levels).map some ∧ ids.Nodup ∧
      ∀ other ∈ ids, TransGen app'.Owns id other

theorem gather_unfolds (each : Unfolds reader levels) {parent : Nat} {roots known all : List Nat}
    {expected : List ProjectAsset} (current : app.IsCurrent) (forest : app.IsForest)
    (there : app.assetAt id = some asset) (owned : ∀ root ∈ roots, app.Owns parent root)
    (own : app.Owns parent id) (new : id ∉ roots) (before : app.Gathered roots expected known)
    (ran : perform (gather levels known id) reader app = (.ok all, app')) :
    app'.Gathered (roots ++ [id]) (expected ++ asset :: asset.unfolded app.files levels) all := by
  have unknown : id ∉ known := by
    intro member
    obtain ⟨root, known, under⟩ := before.below id member
    exact new (forest.apart (owned root known) own under .refl ▸ known)
  have outside : known.contains id = false := by simpa using unknown
  simp only [gather, outside, Bool.false_eq_true, if_false] at ran
  obtain ⟨ids, app₁, sought, ran⟩ := bind_ok ran
  cases ran
  obtain ⟨assets, distinct, below⟩ := each current forest there sought
  have opening : Opening reader app app' := Keeps.after sought
  have branching : Branching reader app app' := Keeps.after sought
  have opened := opening current
  have branched := branching forest
  have under : ∀ other ∈ known, ∃ root ∈ roots, ReflTransGen app'.Owns root other := by
    intro other member
    obtain ⟨root, inside, path⟩ := before.below other member
    exact ⟨root, inside, branched.under path⟩
  have disjoint : (known ++ [id] ++ ids).Nodup := by
    rw [List.append_assoc, List.singleton_append]
    refine List.nodup_append.mpr ⟨before.distinct, List.nodup_cons.mpr ⟨?_, distinct⟩, ?_⟩
    · intro member
      exact Nat.lt_irrefl id (branched.forest.lt_of_below (below id member))
    · rintro other member _ member' rfl
      obtain ⟨root, inside, path⟩ := under other member
      have path' : ReflTransGen app'.Owns id other := by
        rcases List.mem_cons.mp member' with rfl | member'
        · exact .refl
        · exact (below other member').to_reflTransGen
      have same :=
        branched.forest.apart (branched.owns (owned root inside)) (branched.owns own) path path'
      exact new (same ▸ inside)
  rw [addNew_of_nodup disjoint]
  refine ⟨?_, disjoint, ?_⟩
  · simp only [List.map_append, List.map_cons, opened.assets.assets_eq before.assets,
      opened.assets id asset there, assets, List.append_assoc, List.singleton_append]
  · intro other member
    rcases List.mem_append.mp member with earlier | later
    · rcases List.mem_append.mp earlier with old | single
      · obtain ⟨root, inside, path⟩ := under other old
        exact ⟨root, List.mem_append_left _ inside, path⟩
      · obtain rfl := List.mem_singleton.mp single
        exact ⟨other, by simp, .refl⟩
    · exact ⟨id, by simp, (below other later).to_reflTransGen⟩

theorem gatherAll_unfolds (each : Unfolds reader levels) {parent : Nat} {roots ids known all : List Nat}
    {expected found : List ProjectAsset} (current : app.IsCurrent) (forest : app.IsForest)
    (listed : ids.map app.assetAt = found.map some) (owned : ∀ root ∈ roots ++ ids, app.Owns parent root)
    (distinct : (roots ++ ids).Nodup) (before : app.Gathered roots expected known)
    (ran : perform (ids.foldlM (gather levels) known) reader app = (.ok all, app')) :
    app'.Gathered (roots ++ ids)
      (expected ++ found.flatMap fun library => library :: library.unfolded app.files levels) all := by
  induction ids generalizing app roots known expected found with
  | nil =>
    obtain rfl : found = [] := List.map_eq_nil_iff.mp listed.symm
    cases ran
    simpa using before
  | cons id rest ih =>
    obtain ⟨first, others, rfl, there, listed⟩ := List.map_eq_cons_iff.mp listed.symm
    rw [List.foldlM_cons] at ran
    obtain ⟨known', app₁, stepped, ran⟩ := bind_ok ran
    have opening : Opening reader app app₁ := Keeps.after stepped
    have branching : Branching reader app app₁ := Keeps.after stepped
    have opened := opening current
    have branched := branching forest
    have new : id ∉ roots := fun member =>
      (List.nodup_append.mp distinct).2.2 id member id List.mem_cons_self rfl
    have next := gather_unfolds each current forest there.symm
      (fun root member => owned root (List.mem_append_left _ member)) (owned id (by simp)) new
        before stepped
    have last := ih opened.current branched.forest (opened.assets.assets_eq listed.symm)
      (fun root member => branched.owns (owned root (by simpa using member)))
        (by simpa using distinct) next ran
    simpa [opened.files] using last

theorem allLibrariesUpTo_unfolds (reader : Reader) (levels : Nat) : Unfolds reader levels := by
  induction levels with
  | zero =>
    intro app app' id asset ids _ _ _ ran
    cases ran
  | succ levels ih =>
    intro app app' id asset all current forest there ran
    rw [allLibrariesUpTo_succ] at ran
    obtain ⟨ids, app₁, listed, ran⟩ := bind_ok ran
    obtain ⟨result, app₁', ran', opened, lists⟩ :
        ∃ result app', perform (libraries id) reader app = (result, app') ∧ Opened app app' ∧
          app'.Lists (asset.libraries app.files) result := libraries_run current there
    obtain ⟨rfl, rfl⟩ := Prod.mk.inj (listed.symm.trans ran')
    obtain ⟨branched, branches⟩ := libraries_branched forest id reader
    rw [listed] at branched branches
    obtain ⟨distinct, owned⟩ := branches ids rfl
    rcases read : asset.libraries app.files with e | found
    · rw [read] at lists
      cases lists
    · rw [read] at lists
      cases lists with
      | ok same =>
        have none : app₁.Gathered [] [] [] := ⟨rfl, List.nodup_nil, nofun⟩
        have gathered := gatherAll_unfolds ih opened.current branched.forest same (by simpa using owned)
          (by simpa using distinct) none ran
        have branching : Branching reader app₁ app' := Keeps.after ran
        have later := branching branched.forest
        rw [ProjectAsset.unfolded_succ read, ← opened.files]
        refine ⟨by simpa using gathered.assets, gathered.distinct, fun other member => ?_⟩
        obtain ⟨root, inside, path⟩ := gathered.below other member
        exact .head' (later.owns (owned root (by simpa using inside))) path

theorem sourcesAll_eq {ids : List Nat} {found : List ProjectAsset}
    (listed : ids.map app.assetAt = found.map some) :
    perform (ids.mapM sources) reader app = (.ok (found.map (·.sources app.files)), app) := by
  induction ids generalizing found with
  | nil =>
    obtain rfl : found = [] := List.map_eq_nil_iff.mp listed.symm
    rfl
  | cons id rest ih =>
    obtain ⟨first, others, rfl, there, listed⟩ := List.map_eq_cons_iff.mp listed.symm
    rw [List.mapM_cons, perform_bind_ok (sources_run there.symm), perform_bind_ok (ih listed.symm)]
    rfl

/-- All sources are those of the project and of what its dependencies unfold to, in this order. -/
theorem allSources_eq (reader : Reader) (current : app.IsCurrent) (forest : app.IsForest)
    (known : app.assetAt id = some asset) (bounded : Bounded app.files app.levels asset) :
    ∃ app', perform (allSources id) reader app =
        (.ok ((asset :: asset.unfolded app.files app.levels).flatMap (·.sources app.files)), app') ∧
      Opened app app' := by
  obtain ⟨ids, app', ran, opened, -⟩ :=
    (allLibrariesUpTo_spec reader app.levels current known).ok bounded
  obtain ⟨assets, -⟩ := allLibrariesUpTo_unfolds reader app.levels current forest known ran
  rw [← perform_allLibraries] at ran
  refine ⟨app', ?_, opened⟩
  rw [allSources, perform_bind_ok (sources_run known), perform_bind_ok ran,
    perform_bind_ok (sourcesAll_eq assets), opened.files]
  rfl

end App

end SwanModel
