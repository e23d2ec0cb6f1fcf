import Mathlib.Logic.Relation
import SwanModel.Project.Libraries
import SwanModel.Proofs.Perform

/-!
# The graph of dependencies

The files decide how long the chains of libraries are that start at a project, and whether they come
back to it.
-/

namespace SwanModel

open Relation

/-! ### Paths of dependencies -/

/-- The paths of the dependencies in the data of a project, seen from its directory. -/
def Project.libraryPaths (files : Files) (directory : FilePath) (value : Json) :
    Except Error (List FilePath) := do
  (← dependencies value).mapM (findDependency files directory)

def Project.declaredPath (directory : FilePath) : Json → FilePath
  | .str s => dependencyPath directory s
  | _ => directory

section
variable {files : Files} {directory : FilePath}

theorem findDependency_ok {j : Json} {path : FilePath}
    (ran : Project.findDependency files directory j = .ok path) :
    path = Project.declaredPath directory j ∧ files.doesExist path = .ok true := by
  cases j with
  | str s =>
    unfold Project.findDependency at ran
    rcases there : files.doesExist (Project.dependencyPath directory s) with e | b
    · simp only [there] at ran
      cases ran
    · simp only [there] at ran
      cases b <;> cases ran
      exact ⟨rfl, there⟩
  | _ => cases ran

theorem declaredPaths_ok {items : List Json} {paths : List FilePath}
    (ran : items.mapM (Project.findDependency files directory) = .ok paths) :
    paths = items.map (Project.declaredPath directory) ∧
      ∀ path ∈ paths, files.doesExist path = .ok true := by
  induction items generalizing paths with
  | nil =>
    cases ran
    exact ⟨rfl, nofun⟩
  | cons j items ih =>
    rw [List.mapM_cons] at ran
    obtain ⟨path, first, ran⟩ := ok_of_bind ran
    obtain ⟨others, rest, ran⟩ := ok_of_bind ran
    cases ran
    obtain ⟨named, there⟩ := findDependency_ok first
    obtain ⟨same, each⟩ := ih rest
    exact ⟨by rw [List.map_cons, named, same], List.forall_mem_cons.mpr ⟨there, each⟩⟩

end

/-! ### Chains of libraries -/

namespace ProjectAsset

def data (files : Files) (asset : ProjectAsset) :
    Except Error Json := do Json.read (← asset.content files)

def libraries (files : Files) (asset : ProjectAsset) : Except Error (List ProjectAsset) :=
  match asset.directory with
  | none => .ok []
  | some directory => do return (← Project.libraryPaths files directory (← asset.data files)).map .ofPath

def IsReadable (files : Files) (asset : ProjectAsset) : Prop :=
  ∃ found, asset.libraries files = .ok found

/-- Whether all libraries can be found and their chains are shorter than a number of levels. -/
def endsWithin (files : Files) : Nat → ProjectAsset → Bool
  | 0, _ => false
  | levels + 1, asset =>
    match asset.libraries files with
    | .ok found => found.all (endsWithin files levels)
    | .error _ => false

end ProjectAsset

def HasLibrary (files : Files) (asset library : ProjectAsset) : Prop :=
  ∃ found, asset.libraries files = .ok found ∧ library ∈ found

/-- A chain of libraries, each a library of the one before. -/
inductive Chain (files : Files) : Nat → ProjectAsset → ProjectAsset → Prop
  | stay (asset : ProjectAsset) : Chain files 0 asset asset
  | step {length : Nat} {asset library last : ProjectAsset} :
    HasLibrary files asset library → Chain files length library last →
      Chain files (length + 1) asset last

/-- Every project that is reached can be read, and no chain is as long as the number of levels. -/
structure Bounded (files : Files) (levels : Nat) (asset : ProjectAsset) : Prop where
  readable : ∀ library, ReflTransGen (HasLibrary files) asset library → library.IsReadable files
  short : ∀ last, ¬ Chain files levels asset last

variable {files : Files} {asset library last : ProjectAsset} {levels length : Nat}

theorem Chain.shorten (chain : Chain files (length + 1) asset last) :
    ∃ before, Chain files length asset before := by
  induction length generalizing asset with
  | zero => exact ⟨asset, .stay asset⟩
  | succ length ih =>
    cases chain with
    | step edge rest =>
      obtain ⟨before, shorter⟩ := ih rest
      exact ⟨before, .step edge shorter⟩

theorem Chain.after_path (path : ReflTransGen (HasLibrary files) asset library)
    (chain : Chain files length library last) : ∃ last', Chain files length asset last' := by
  induction path using ReflTransGen.head_induction_on with
  | refl => exact ⟨last, chain⟩
  | head edge _ ih =>
    obtain ⟨last', chain'⟩ := ih
    exact (Chain.step edge chain').shorten

theorem Bounded.succ (bounded : Bounded files levels asset) : Bounded files (levels + 1) asset where
  readable := bounded.readable
  short last chain := by
    obtain ⟨before, shorter⟩ := chain.shorten
    exact bounded.short before shorter

/-- A project has bounded chains when its libraries have. -/
theorem bounded_succ_iff {found : List ProjectAsset} (read : asset.libraries files = .ok found) :
    Bounded files (levels + 1) asset ↔ ∀ library ∈ found, Bounded files levels library := by
  constructor
  · intro bounded library member
    have edge : HasLibrary files asset library := ⟨found, read, member⟩
    exact ⟨fun other path => bounded.readable other (.head edge path),
      fun last chain => bounded.short last (.step edge chain)⟩
  · intro each
    constructor
    · intro other path
      rcases path.cases_head with rfl | ⟨library, ⟨found', read', member⟩, path⟩
      · exact ⟨found, read⟩
      · obtain rfl : found = found' := Except.ok.inj (read.symm.trans read')
        exact (each library member).readable other path
    · intro last chain
      cases chain with
      | step edge rest =>
        obtain ⟨found', read', member⟩ := edge
        obtain rfl : found = found' := Except.ok.inj (read.symm.trans read')
        exact (each _ member).short last rest

theorem endsWithin_iff : asset.endsWithin files levels = true ↔ Bounded files levels asset := by
  induction levels generalizing asset with
  | zero =>
    have never : ¬ Bounded files 0 asset := fun bounded => bounded.short asset (.stay asset)
    simp [ProjectAsset.endsWithin, never]
  | succ levels ih =>
    rcases read : asset.libraries files with e | found
    · have never : ¬ Bounded files (levels + 1) asset := by
        intro bounded
        obtain ⟨found, read'⟩ := bounded.readable asset .refl
        rw [read] at read'
        cases read'
      simp [ProjectAsset.endsWithin, read, never]
    · rw [bounded_succ_iff read]
      simp [ProjectAsset.endsWithin, read, ih]

theorem chain_of_cycle (cycle : TransGen (HasLibrary files) asset asset) (length : Nat) :
    ∃ last, Chain files length asset last := by
  induction length with
  | zero => exact ⟨asset, .stay asset⟩
  | succ length ih =>
    obtain ⟨last, chain⟩ := ih
    obtain ⟨next, edge, path⟩ := TransGen.head'_iff.mp cycle
    obtain ⟨last', rest⟩ := Chain.after_path path chain
    exact ⟨last', .step edge rest⟩

theorem not_bounded_of_cycle (path : ReflTransGen (HasLibrary files) asset library)
    (cycle : TransGen (HasLibrary files) library library) : ¬ Bounded files levels asset := by
  intro bounded
  obtain ⟨last, chain⟩ := chain_of_cycle cycle levels
  obtain ⟨last', chain'⟩ := Chain.after_path path chain
  exact bounded.short last' chain'

end SwanModel
