import SwanModel.Proofs.Project.Unfolding

/-!
# Libraries in the order of their dependencies

The order of all libraries is that of the tree which the dependencies unfold to, so a library comes
behind a project that declares it.
-/

namespace SwanModel

open Relation

variable {directory : FilePath} {dependencies : List String}

variable {app app' : Application} {reader : Reader} {id levels : Nat} {files : Files}
  {asset library : ProjectAsset}

/-! ### What files declare -/

namespace Project

/-- A path that is given as text, seen from a directory. A backslash stands for a slash, and an
absolute path is seen from everywhere alike. -/
def resolved (directory : FilePath) (s : String) : FilePath :=
  let path := FilePath.ofText (s.map fun c => if c = '\\' then '/' else c)
  if path.root = "" then ⟨directory.root, directory.parts ++ path.parts⟩ else path

theorem dependencyPath_eq_resolved (directory : FilePath) (s : String) :
    dependencyPath directory s = resolved directory s := by
  have slashes : FilePath.slashed s = s.map fun c => if c = '\\' then '/' else c := by
    simp only [FilePath.slashed, Text.replaceChar, beq_iff_eq]
  simp only [dependencyPath, resolved, slashes, FilePath.join, FilePath.isAbsolute]
  split <;> split <;> simp_all

end Project

/-- The file of a project is in a directory and declares some dependencies, all of which are
there. -/
structure ProjectAsset.Declares (files : Files) (asset : ProjectAsset) (directory : FilePath)
    (dependencies : List String) : Prop where
  place : asset.directory = some directory
  data : ∃ fields, asset.data files = .ok (.obj fields) ∧
    Json.lookup fields "Dependencies" = some (.arr (dependencies.map .str))
  exist : ∀ s ∈ dependencies, files.doesExist (Project.resolved directory s) = .ok true

def Project.named (directory : FilePath) (dependencies : List String) : List ProjectAsset :=
  dependencies.map fun s => .ofPath (resolved directory s)

theorem findDependencies_ok
    (exist : ∀ s ∈ dependencies, files.doesExist (Project.resolved directory s) = .ok true) :
    (dependencies.map Json.str).mapM (Project.findDependency files directory) =
      .ok (dependencies.map (Project.resolved directory)) := by
  induction dependencies with
  | nil => rfl
  | cons s rest ih =>
    obtain ⟨here, others⟩ := List.forall_mem_cons.mp exist
    have found : Project.findDependency files directory (.str s) =
        .ok (Project.resolved directory s) := by
      simp only [Project.findDependency, Project.dependencyPath_eq_resolved, here]
      rfl
    rw [List.map_cons, List.mapM_cons, found, ih others]
    rfl

theorem ProjectAsset.Declares.libraries
    (declares : asset.Declares files directory dependencies) :
    asset.libraries files = .ok (Project.named directory dependencies) := by
  obtain ⟨fields, read, listed⟩ := declares.data
  have items : Project.dependencies (.obj fields) = .ok (dependencies.map .str) := by
    simp only [Project.dependencies, Project.dependenciesKey, listed, Project.itemsOf]
  have paths : Project.libraryPaths files directory (.obj fields) =
      .ok (dependencies.map (Project.resolved directory)) := by
    rw [Project.libraryPaths, items]
    exact findDependencies_ok declares.exist
  simp only [ProjectAsset.libraries, declares.place, read]
  change (do return (← Project.libraryPaths files directory (.obj fields)).map ProjectAsset.ofPath) = _
  rw [paths, Project.named]
  exact congrArg Except.ok (List.map_map ..)

/-! ### Preorder -/

/-- A list goes through the trees of some projects in preorder: a project, all its libraries, and
what is left. -/
inductive InPreorder (files : Files) : List ProjectAsset → List ProjectAsset → Prop
  | nil : InPreorder files [] []
  | cons {library : ProjectAsset} {directory : FilePath} {dependencies : List String}
      {own rest others : List ProjectAsset} (declares : library.Declares files directory dependencies)
      (below : InPreorder files (Project.named directory dependencies) own)
        (behind : InPreorder files rest others) :
      InPreorder files (library :: rest) (library :: (own ++ others))

/-- What the dependencies unfold to is in preorder. -/
theorem preorder_unfolded {found : List ProjectAsset}
    (bounded : ∀ library ∈ found, Bounded files levels library)
    (declared : ∀ first ∈ found, ∀ library, ReflTransGen (HasLibrary files) first library →
      ∃ directory dependencies, library.Declares files directory dependencies) :
    InPreorder files found (found.flatMap fun library => library :: library.unfolded files levels) := by
  induction levels generalizing found with
  | zero =>
    cases found with
    | nil => exact .nil
    | cons first rest => exact absurd (.stay first) ((bounded first List.mem_cons_self).short first)
  | succ levels ih =>
    induction found with
    | nil => exact .nil
    | cons first rest ihRest =>
      obtain ⟨here, others⟩ := List.forall_mem_cons.mp bounded
      obtain ⟨declaredHere, declaredOthers⟩ := List.forall_mem_cons.mp declared
      obtain ⟨directory, dependencies, declares⟩ := declaredHere first .refl
      have read := declares.libraries
      rw [List.flatMap_cons, ProjectAsset.unfolded_succ read]
      refine .cons declares (ih ((bounded_succ_iff read).mp here) fun next member library path => ?_)
        (ihRest others declaredOthers)
      exact declaredHere library (.head ⟨_, read, member⟩ path)

/-- There is one preorder. -/
theorem InPreorder.unique {roots listed others : List ProjectAsset}
    (first : InPreorder files roots listed) (second : InPreorder files roots others) :
    listed = others := by
  induction first generalizing others with
  | nil =>
    cases second
    rfl
  | cons declares _ _ ihBelow ihBehind =>
    cases second with
    | cons declares' below' behind' =>
      rw [← Except.ok.inj (declares.libraries.symm.trans declares'.libraries)] at below'
      rw [ihBelow below', ihBehind behind']

/-- What the dependencies of one project unfold to are their trees in preorder. -/
theorem ProjectAsset.Declares.preorder
    (declares : asset.Declares files directory dependencies) (bounded : Bounded files levels asset)
    (declared : ∀ library, ReflTransGen (HasLibrary files) asset library →
      ∃ directory dependencies, library.Declares files directory dependencies) :
    InPreorder files (Project.named directory dependencies) (asset.unfolded files levels) := by
  have read := declares.libraries
  cases levels with
  | zero => exact absurd (.stay asset) (bounded.short asset)
  | succ levels =>
    rw [ProjectAsset.unfolded_succ read]
    refine preorder_unfolded ((bounded_succ_iff read).mp bounded) fun first member library path => ?_
    exact declared library (.head ⟨_, read, member⟩ path)

/-- Each project is one of those that a preorder starts with, or comes behind one that has it as a
library. -/
theorem InPreorder.behind_user {roots listed : List ProjectAsset}
    (preorder : InPreorder files roots listed) {before after : List ProjectAsset}
    (there : listed = before ++ library :: after) :
    library ∈ roots ∨ ∃ user ∈ before, HasLibrary files user library := by
  induction preorder generalizing before after with
  | nil => simp at there
  | @cons first directory dependencies own rest others declares _ _ ihBelow ihBehind =>
    cases before with
    | nil =>
      obtain ⟨rfl, -⟩ := List.cons.inj there
      exact .inl List.mem_cons_self
    | cons earlier before =>
      obtain ⟨rfl, below⟩ := List.cons.inj there
      rcases List.append_eq_append_iff.mp below with
        ⟨middle, inBefore, inOthers⟩ | ⟨middle, inOwn, inAfter⟩
      · -- behind the libraries of the first project
        rcases ihBehind inOthers with root | ⟨user, member, has⟩
        · exact .inl (List.mem_cons_of_mem _ root)
        · exact .inr ⟨user, by simp [inBefore, member], has⟩
      · cases middle with
        | nil =>
          have first : others = [] ++ _ := inAfter.symm
          rcases ihBehind first with root | ⟨user, member, -⟩
          · exact .inl (List.mem_cons_of_mem _ root)
          · cases member
        | cons next middle =>
          obtain ⟨rfl, -⟩ := List.cons.inj inAfter
          rcases ihBelow inOwn with root | ⟨user, member, has⟩
          · exact .inr ⟨first, List.mem_cons_self, _, declares.libraries, root⟩
          · exact .inr ⟨user, List.mem_cons_of_mem _ member, has⟩

/-- If every project that is reached is a file that declares existing dependencies, and none leads
back to itself, then the trees of the dependencies of a project have a preorder. Its members are the
projects that are reached, and each is a dependency of the project or comes behind one that has it.
In any history that leaves the files alone, and for every number of levels above the longest chain
of dependencies, all libraries of the project are this preorder, and all sources are those of the
project and then those of the libraries in this order. -/
theorem libraries_in_preorder (files : Files) (asset : ProjectAsset)
    (declared : ∀ library, ReflTransGen (HasLibrary files) asset library →
      ∃ directory dependencies, library.Declares files directory dependencies)
    (acyclic : ∀ library, ReflTransGen (HasLibrary files) asset library →
      ¬ TransGen (HasLibrary files) library library) :
    ∃ directory dependencies libraries, asset.Declares files directory dependencies ∧
      InPreorder files (Project.named directory dependencies) libraries ∧
      (∀ library, library ∈ libraries ↔ TransGen (HasLibrary files) asset library) ∧
      (∀ before library after, libraries = before ++ library :: after →
        library ∈ Project.named directory dependencies ∨
          ∃ user ∈ before, HasLibrary files user library) ∧
      ∃ longest, (∃ last, Chain files longest asset last) ∧
        ∀ levels, longest < levels →
          ∀ reader history, (∀ step ∈ history, ProjectStep.onlyReads step = true) →
            ∀ app id, app = Application.after reader { files := files, levels := levels } history →
              app.assetAt id = some asset →
            (∃ ids app', perform (App.allLibraries id) reader app = (.ok ids, app') ∧
              ids.map app'.assetAt = libraries.map some) ∧
            ∃ app', perform (App.allSources id) reader app =
              (.ok (asset.sources files ++ libraries.flatMap (·.sources files)), app') := by
  obtain ⟨directory, dependencies, declares⟩ := declared asset .refl
  have readable (library : ProjectAsset) (path : ReflTransGen (HasLibrary files) asset library) :
      library.IsReadable files := by
    obtain ⟨_, _, declares⟩ := declared library path
    exact ⟨_, declares.libraries⟩
  obtain ⟨longest, longestChain, short⟩ := exists_longest_chain acyclic
  have bounded (levels : Nat) (more : longest < levels) : Bounded files levels asset :=
    ⟨readable, short levels more⟩
  have preorder (levels : Nat) (more : longest < levels) :=
    declares.preorder (bounded levels more) declared
  have first := Nat.lt_succ_self longest
  refine ⟨directory, dependencies, asset.unfolded files (longest + 1), declares, preorder _ first,
    fun library => ProjectAsset.mem_unfolded_iff (bounded _ first),
    fun before library after => (preorder _ first).behind_user, longest, longestChain, ?_⟩
  intro levels more reader history reads app id behind known
  have opened := after_opened reads behind
  have forest := after_isForest reads behind
  have same : app.files = files := opened.files
  have deep : app.levels = levels := opened.levels
  have here := opened.bounded (bounded levels more)
  rw [(preorder _ first).unique (preorder levels more)]
  constructor
  · obtain ⟨ids, app', ran, -⟩ :=
      (App.allLibrariesUpTo_spec reader app.levels opened.current known).ok here
    obtain ⟨assets, -⟩ := App.allLibrariesUpTo_unfolds reader app.levels opened.current forest known ran
    rw [same, deep] at assets
    exact ⟨ids, app', ran, assets⟩
  · obtain ⟨app', ran, -⟩ := App.allSources_eq reader opened.current forest known here
    rw [same, deep] at ran
    exact ⟨app', ran⟩

/-! ### Checking what files declare -/

def Json.strings? : List Json → Option (List String)
  | [] => some []
  | .str s :: rest => (strings? rest).map (s :: ·)
  | _ :: _ => none

theorem Json.strings?_eq_some {items : List Json} {strings : List String}
    (all : strings? items = some strings) : items = strings.map .str := by
  induction items generalizing strings with
  | nil =>
    cases all
    rfl
  | cons item rest ih =>
    cases item with
    | str s =>
      obtain ⟨others, found, rfl⟩ := Option.map_eq_some_iff.mp all
      rw [ih found, List.map_cons]
    | _ => cases all

namespace ProjectAsset

/-- The directory of a project and the dependencies that its file declares, if all of them are
there. -/
def declared? (files : Files) (asset : ProjectAsset) : Option (FilePath × List String) :=
  match asset.directory, asset.data files with
  | some directory, .ok (.obj fields) =>
    match Json.lookup fields "Dependencies" with
    | some (.arr items) => do
      let dependencies ← Json.strings? items
      if dependencies.all fun s =>
        (files.doesExist (Project.resolved directory s)).toOption == some true then
        return (directory, dependencies)
      else none
    | _ => none
  | _, _ => none

theorem declares_of_declared?
    (declared : asset.declared? files = some (directory, dependencies)) :
    asset.Declares files directory dependencies := by
  unfold declared? at declared
  split at declared
  · rename_i place fields there read
    split at declared
    · rename_i items listed
      obtain ⟨strings, all, checked⟩ := Option.bind_eq_some_iff.mp declared
      split at checked
      · rename_i exist
        cases checked
        refine ⟨there, ⟨fields, read, by rw [listed, Json.strings?_eq_some all]⟩, fun s member => ?_⟩
        have here := List.all_eq_true.mp exist s member
        cases found : files.doesExist (Project.resolved directory s) with
        | error e => simp [found, Except.toOption] at here
        | ok there => simpa [found, Except.toOption] using here
      · cases checked
    · cases declared
  · cases declared

/-- Whether every project that is reached declares existing dependencies, in chains shorter than
some length. -/
def declaresWithin (files : Files) : Nat → ProjectAsset → Bool
  | 0, _ => false
  | levels + 1, asset =>
    match asset.declared? files with
    | some (directory, dependencies) =>
      (Project.named directory dependencies).all (declaresWithin files levels)
    | none => false

theorem declaresWithin_spec (checked : asset.declaresWithin files levels = true) :
    Bounded files levels asset ∧ ∀ library, ReflTransGen (HasLibrary files) asset library →
      ∃ directory dependencies, library.Declares files directory dependencies := by
  induction levels generalizing asset with
  | zero => cases checked
  | succ levels ih =>
    unfold declaresWithin at checked
    split at checked
    · rename_i directory dependencies declared
      have declares := declares_of_declared? declared
      have read := declares.libraries
      have each := List.all_eq_true.mp checked
      refine ⟨(bounded_succ_iff read).mpr fun library member => (ih (each library member)).1,
        fun library path => ?_⟩
      rcases path.cases_head with rfl | ⟨first, ⟨found, read', member⟩, path⟩
      · exact ⟨directory, dependencies, declares⟩
      · obtain rfl : Project.named directory dependencies = found :=
          Except.ok.inj (read.symm.trans read')
        exact (ih (each first member)).2 library path
    · cases checked

end ProjectAsset

/-- A project with two libraries in directories of their own, one of which is a library of the other
too, under an absolute path. -/
def sharedBelow : Files := .ofListing
  [("p.sproj", some (projectText ["l\\\\l.sproj", "m/m.sproj"])),
    ("l/l.sproj", some (projectText ["/work/m/m.sproj"])), ("l/assets/L.swan", some ""),
    ("m/m.sproj", some (projectText [])), ("m/assets/M.swan", some "")]

theorem shared_libraries_in_preorder : ∃ longest, ∀ levels, longest < levels → ∃ ids app' app'',
    perform (App.allLibraries 0) Reader.none
      (Application.after Reader.none { files := sharedBelow, levels := levels }
        [.load "p" (.ofText "p.sproj")]) =
        (.ok ids, app') ∧
    ids.map app'.assetAt =
      [.ofText "l/l.sproj", .ofText "/work/m/m.sproj", .ofText "m/m.sproj"].map some ∧
    perform (App.allSources 0) Reader.none
      (Application.after Reader.none { files := sharedBelow, levels := levels }
        [.load "p" (.ofText "p.sproj")]) =
        (.ok [.ofText "l/assets/L.swan", .ofText "/work/m/assets/M.swan",
          .ofText "m/assets/M.swan"], app'') := by
  obtain ⟨bounded, declared⟩ : Bounded sharedBelow 3 (.ofText "p.sproj") ∧ _ :=
    ProjectAsset.declaresWithin_spec (by decide +kernel)
  obtain ⟨directory, dependencies, libraries, declares, preorder, -, -, longest, -, found⟩ :=
    libraries_in_preorder sharedBelow (.ofText "p.sproj") declared fun library path cycle =>
      not_bounded_of_cycle path cycle bounded
  have unfolded : (ProjectAsset.ofText "p.sproj").unfolded sharedBelow 3 =
      [.ofText "l/l.sproj", .ofText "/work/m/m.sproj", .ofText "m/m.sproj"] := by decide +kernel
  have listed : (ProjectAsset.ofText "p.sproj").sources sharedBelow ++
      [ProjectAsset.ofText "l/l.sproj", .ofText "/work/m/m.sproj", .ofText "m/m.sproj"].flatMap
        (·.sources sharedBelow) =
      [.ofText "l/assets/L.swan", .ofText "/work/m/assets/M.swan", .ofText "m/assets/M.swan"] := by
        decide +kernel
  obtain rfl := (preorder.unique (declares.preorder bounded declared)).trans unfolded
  refine ⟨longest, fun levels more => ?_⟩
  obtain ⟨⟨ids, app', ran, assets⟩, app'', sources⟩ :=
    found levels more Reader.none [.load "p" (.ofText "p.sproj")] (by decide) _ 0 rfl rfl
  rw [listed] at sources
  exact ⟨ids, app', app'', ran, assets, sources⟩

end SwanModel
